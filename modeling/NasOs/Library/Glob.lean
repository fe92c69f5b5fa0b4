import NasOs.Library.Text

/-!
# Patterns of file names

In a pattern, `*` stands for any characters, `?` for any character, and `[…]` for one of the characters or
ranges in it, or one of the others if it begins with `!`; every other character stands for itself.
-/

namespace Glob

/-- What a part of a pattern stands for. -/
inductive Item where
  | literal (c : Char)
  | any
  | oneOf (negated : Bool) (ranges : List (Char × Char))
  | star

/-- The ranges of a set; a character is one from itself to itself. -/
def ranges : List Char → List (Char × Char)
  | a :: '-' :: b :: set => (a, b) :: ranges set
  | a :: set => (a, a) :: ranges set
  | [] => []

/-- A set after its opening bracket, and what follows; the bracket that closes it is not its first
character. -/
def set (pattern : List Char) : Option (Item × List Char) :=
  let negated := pattern.head? = some '!'
  let body := if negated then pattern.tail else pattern
  match body with
  | [] => none
  | first :: rest =>
      (Text.splitFirst ']' rest).map fun (more, after) => (.oneOf negated (ranges (first :: more)), after)

/-- The items of a pattern of at most `n` characters. -/
def items : ℕ → List Char → List Item
  | 0, _ => []
  | _, [] => []
  | n + 1, c :: pattern =>
      if c = '*' then .star :: items n pattern
      else if c = '?' then .any :: items n pattern
      else if c = '[' then
        match set pattern with
        | none => .literal '[' :: items n pattern
        | some (item, after) => item :: items n after
      else .literal c :: items n pattern

/-- One character is what an item stands for. -/
def Item.accepts : Item → Char → Bool
  | .literal c, d => c = d
  | .any, _ => true
  | .oneOf negated ranges, d => ranges.any (fun range => range.1 ≤ d ∧ d ≤ range.2) != negated
  | .star, _ => false

/-- Some end of the text satisfies a condition. -/
def someEnd (m : List Char → Bool) : List Char → Bool
  | [] => m []
  | c :: text => m (c :: text) || someEnd m text

/-- A text is what some items stand for, one after the other. -/
def matchesItems : List Item → List Char → Bool
  | [], text => text = []
  | .star :: items, text => someEnd (matchesItems items) text
  | _ :: _, [] => false
  | item :: items, c :: text => item.accepts c && matchesItems items text

/-- A name is what a pattern stands for. -/
def fnmatch (pattern name : String) : Bool :=
  matchesItems (items pattern.toList.length pattern.toList) name.toList

/-- A text that no part of a pattern but `*` can be read from. -/
def IsLiteral (text : List Char) : Prop :=
  ∀ c ∈ text, c ∉ ['*', '?', '[']

instance (text : List Char) : Decidable (IsLiteral text) :=
  List.decidableBAll (fun c => c ∉ ['*', '?', '[']) text

/-- A text that stands for itself. -/
theorem items_append {text : List Char} (h : IsLiteral text) (n : ℕ) (pattern : List Char) :
  items (text.length + n) (text ++ pattern) = text.map Item.literal ++ items n pattern
  := by
  induction text with
  | nil => simp
  | cons c text ih =>
      obtain ⟨hc, htext⟩ := List.forall_mem_cons.mp h
      simp only [List.mem_cons, List.not_mem_nil, or_false, not_or] at hc
      rw [List.length_cons, Nat.add_right_comm, List.cons_append, items, if_neg hc.1, if_neg hc.2.1,
        if_neg hc.2.2, ih htext]
      rfl

/-- Items that stand for themselves match the beginning of a text. -/
theorem matchesItems_literal_append {text : List Char} {items : List Item} {name : List Char} :
  matchesItems (text.map Item.literal ++ items) name = true
    ↔ ∃ rest, name = text ++ rest ∧ matchesItems items rest = true
  := by
  induction text generalizing name with
  | nil => simp
  | cons c text ih =>
      cases name with
      | nil => simp [matchesItems]
      | cons d name =>
          have hcons : matchesItems (Item.literal c :: (text.map Item.literal ++ items)) (d :: name)
              = (decide (c = d) && matchesItems (text.map Item.literal ++ items) name) := rfl
          rw [List.map_cons, List.cons_append, hcons]
          simp only [Bool.and_eq_true, decide_eq_true_eq, ih, List.cons_append, List.cons.injEq]
          constructor
          · rintro ⟨rfl, rest, rfl, hrest⟩
            exact ⟨rest, ⟨rfl, rfl⟩, hrest⟩
          · rintro ⟨rest, ⟨rfl, rfl⟩, hrest⟩
            exact ⟨rfl, rest, rfl, hrest⟩

/-- Every text has an end that is empty. -/
theorem matchesItems_star (text : List Char) :
  matchesItems [.star] text = true
  := by
  rw [matchesItems]
  induction text with
  | nil => rfl
  | cons c text ih => rw [someEnd, ih, Bool.or_true]

/-- A pattern that ends with `*` after characters that stand for themselves matches what begins with
them. -/
theorem fnmatch_append_star {text : String} (h : IsLiteral text.toList) (name : String) :
  fnmatch (text ++ "*") name = true ↔ text.toList <+: name.toList
  := by
  rw [fnmatch, String.toList_append, List.length_append, items_append h, matchesItems_literal_append]
  constructor
  · rintro ⟨rest, heq, -⟩
    use rest
    exact heq.symm
  · rintro ⟨rest, heq⟩
    use rest, heq.symm
    apply matchesItems_star

end Glob
