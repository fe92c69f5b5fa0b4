import NasOs.Library.Acl
import NasOs.Library.Text

/-!
# Access control lists as text

The text that sets entries of a list, which `setfacl` reads, and the text of the lists of a
file, which `getfacl` prints: a line for each entry, with the effective permission in a
comment where the mask takes something from it.  Principals are written by their numbers.
-/

namespace Perm

/-- The three letters of a permission. -/
def text (p : Perm) : List Char :=
  [if p.read then 'r' else '-', if p.write then 'w' else '-', if p.execute then 'x' else '-']

/-- The permission that three letters denote. -/
def parse : List Char → Option Perm
  | [r, w, x] =>
      if (r = 'r' ∨ r = '-') ∧ (w = 'w' ∨ w = '-') ∧ (x = 'x' ∨ x = '-')
      then some ⟨r == 'r', w == 'w', x == 'x'⟩ else none
  | _ => none

theorem parse_text (p : Perm) :
  parse p.text = some p
  := by
  rcases p with ⟨_ | _, _ | _, _ | _⟩
  all_goals rfl

/-- The letters of a permission are neither whitespace nor punctuation. -/
theorem not_isSpace_of_mem_text {p : Perm} {c : Char} (h : c ∈ p.text) :
  Text.isSpace c = false ∧ c ≠ ':' ∧ c ≠ ','
  := by
  have hletter : c = 'r' ∨ c = 'w' ∨ c = 'x' ∨ c = '-' := by
    rcases p with ⟨_ | _, _ | _, _ | _⟩
    all_goals
      simp [text] at h
      tauto
  rcases hletter with rfl | rfl | rfl | rfl
  all_goals decide

/-- A permission has the letter `w` exactly when it lets write. -/
theorem mem_text_iff (p : Perm) :
  'w' ∈ p.text ↔ p.write = true
  := by
  rcases p with ⟨_ | _, _ | _, _ | _⟩
  all_goals decide

end Perm

/-! ### Setting entries -/

/-- The entry that a tag and a number denote. -/
def AclTag.parse : List Char → List Char → Option AclTag
  | ['u'], [] => some .userObj
  | ['g'], [] => some .groupObj
  | ['o'], [] => some .other
  | ['m'], [] => some .mask
  | ['u'], id => (Text.decimal id).map fun id => .named (.user id)
  | ['g'], id => (Text.decimal id).map fun id => .named (.group id)
  | _, _ => none

namespace AclSpec

/-- The change that the fields of a text denote. -/
def ofFields (isDefault : Bool) (tag id perm : List Char) : Option AclSpec := do
  let tag ← AclTag.parse tag id
  let perm ← Perm.parse perm
  pure ⟨isDefault, tag, perm⟩

/-- The change that a text denotes. -/
def parse (l : List Char) : Option AclSpec :=
  match l.splitOn ':' with
  | [tag, id, perm] => ofFields false tag id perm
  | [['d'], tag, id, perm] => ofFields true tag id perm
  | _ => none

/-- The changes that texts with commas between them denote. -/
def parseList (l : List Char) : Option (List AclSpec) :=
  (l.splitOn ',').mapM parse

end AclSpec

/-! ### Printing entries -/

/-- The line of an entry, with its effective permission where the mask takes something from
it. -/
def AclTag.line (start tag : String) (id : List Char) (perm mask : Perm) : List Char :=
  let entry := start.toList ++ tag.toList ++ ':' :: id ++ ':' :: perm.text
  if perm ∩ mask = perm then entry
  else
    entry ++ List.replicate (max 1 (4 - entry.length / 8)) '\t' ++ "#effective:".toList
      ++ (perm ∩ mask).text

/-- The tag of the lines of a principal. -/
def Principal.tag : Principal → String
  | .user _ => "user"
  | .group _ => "group"

/-- The number of a principal. -/
def Principal.id : Principal → ℕ
  | .user id => id
  | .group id => id

namespace Acl

/-- The lines of the named entries of users, or of groups. -/
def namedLines (acl : Acl) (start tag : String) : List (List Char) :=
  (acl.named.entries.filter fun entry => entry.1.tag = tag).map fun entry =>
    AclTag.line start tag (Nat.toDigits 10 entry.1.id) entry.2 acl.maskPerm

/-- The lines of a list. -/
def lines (acl : Acl) (start : String) : List (List Char) :=
  AclTag.line start "user" [] acl.userObj Perm.all :: acl.namedLines start "user"
    ++ AclTag.line start "group" [] acl.groupObj acl.maskPerm :: acl.namedLines start "group"
    ++ (acl.mask.map fun mask => AclTag.line start "mask" [] mask Perm.all).toList
    ++ [AclTag.line start "other" [] acl.other Perm.all]

end Acl

/-- The lines of a file, ended by an empty line. -/
def FileAcl.lines (acl : FileAcl) : List (List Char) :=
  acl.access.lines "" ++ (acl.default.map fun acl => acl.lines "default:").getD [] ++ [[]]

/-- The text of the lists of a file. -/
def FileAcl.text (acl : FileAcl) : List Char :=
  acl.lines.flatMap fun line => line ++ ['\n']

/-! ### Lines have no line boundaries -/

theorem not_isLineBreak_of_not_isSpace {c : Char} (h : Text.isSpace c = false) :
  Text.isLineBreak c = false
  := by
  simp only [Text.isSpace, Text.isLineBreak] at h ⊢
  grind

/-- A line of an entry whose number is in digits has no line boundary in it. -/
theorem AclTag.not_isLineBreak_line {start tag : String} {id : List Char}
    (hstart : ∀ c ∈ start.toList, Text.isLineBreak c = false)
    (htag : ∀ c ∈ tag.toList, Text.isLineBreak c = false)
    (hid : ∀ c ∈ id, c.isDigit = true) (perm mask : Perm) {c : Char}
    (h : c ∈ AclTag.line start tag id perm mask) :
  Text.isLineBreak c = false
  := by
  have hperm : ∀ p : Perm, c ∈ p.text → Text.isLineBreak c = false := fun p hp =>
    not_isLineBreak_of_not_isSpace (Perm.not_isSpace_of_mem_text hp).1
  have hdigit : c ∈ id → Text.isLineBreak c = false := fun hc =>
    not_isLineBreak_of_not_isSpace (Text.isSpace_of_isDigit (hid c hc))
  have hentry : c ∈ start.toList ++ tag.toList ++ ':' :: id ++ ':' :: perm.text →
      Text.isLineBreak c = false := by
    intro hc
    simp only [List.mem_append, List.mem_cons] at hc
    rcases hc with ((hc | hc) | rfl | hc) | rfl | hc
    · apply hstart c hc
    · apply htag c hc
    · decide
    · apply hdigit hc
    · decide
    · apply hperm perm hc
  simp only [AclTag.line] at h
  split at h
  · apply hentry h
  · rcases List.mem_append.mp h with h | h
    · rcases List.mem_append.mp h with h | h
      · rcases List.mem_append.mp h with h | h
        · apply hentry h
        · obtain ⟨-, rfl⟩ := List.mem_replicate.mp h
          decide
      · have heffective : ∀ c ∈ "#effective:".toList, Text.isLineBreak c = false :=
          List.forall_iff_forall_mem.mp (by decide)
        apply heffective c h
    · apply hperm _ h
