import Mathlib.Data.List.Induction
import Mathlib.Data.List.DropRight
import Mathlib.Data.List.Infix
import NasOs.Library.Table

/-!
# Trees of files

A tree of files and symbolic links, as the entries at its locations; a location is the names on the way
from the root.  Every entry is in a directory, which is part of the type.

A path is the names between its slashes, some of which may be empty; it is followed name by name from the
root.  A link on the way is followed too, and the last name of the path only if it should be.  What is
looked up on the way is what the path depends on: when nothing of it is removed, the path leads where it
did, and otherwise nowhere.
-/

namespace FileTree

/-- The names on the way from the root. -/
abbrev Location : Type :=
  List String

/-- What is at a location. -/
inductive Entry where
  | file (content : List UInt8)
  /-- A link to a path, which is followed from the root if it is absolute. -/
  | link (absolute : Bool) (target : List String)
  | dir
  deriving DecidableEq

end FileTree

/-- The entries at the locations of a tree. -/
structure FileTree where
  entries : Table (Prod.fst : FileTree.Location × FileTree.Entry → FileTree.Location)
  root : ∃ item, entries.find? [] = some item ∧ item.2 = .dir
  parent : ∀ loc name item, entries.find? (loc ++ [name]) = some item →
    ∃ above, entries.find? loc = some above ∧ above.2 = .dir

namespace FileTree

/-- The tree with nothing below its root. -/
def bare : FileTree where
  entries := ⟨[([], .dir)], List.nodup_singleton _⟩
  root := ⟨([], .dir), rfl, rfl⟩
  parent := by
    intro loc name item hitem
    rw [Table.find?_eq_some_iff, List.mem_singleton] at hitem
    obtain ⟨rfl, hloc⟩ := hitem
    simp at hloc

/-- What is at a location, if anything is. -/
def lookup (t : FileTree) (loc : Location) : Option Entry :=
  (t.entries.find? loc).map Prod.snd

/-- The root is a directory. -/
@[simp]
theorem lookup_nil (t : FileTree) :
  t.lookup [] = some .dir
  := by
  obtain ⟨item, hitem, hdir⟩ := t.root
  rw [lookup, hitem, Option.map_some, hdir]

/-- Every entry is in a directory. -/
theorem lookup_parent {t : FileTree} {loc : Location} {name : String} {entry : Entry}
    (h : t.lookup (loc ++ [name]) = some entry) :
  t.lookup loc = some .dir
  := by
  obtain ⟨item, hitem, -⟩ := Option.map_eq_some_iff.mp h
  obtain ⟨above, habove, hdir⟩ := t.parent loc name item hitem
  rw [lookup, habove, Option.map_some, hdir]

/-- What lies above an entry is a directory. -/
theorem lookup_of_append {t : FileTree} {loc rest : Location} {entry : Entry} (hne : rest ≠ [])
    (h : t.lookup (loc ++ rest) = some entry) :
  t.lookup loc = some .dir
  := by
  induction rest using List.reverseRecOn generalizing entry with
  | nil => contradiction
  | append_singleton rest name ih =>
      rw [← List.append_assoc] at h
      have habove := lookup_parent h
      by_cases hrest : rest = []
      · rw [hrest, List.append_nil] at habove
        apply habove
      · apply ih hrest habove

/-- What leads to an entry is a directory, unless it leads no further and the entry is none. -/
theorem dir_or_eq_nil_of_lookup {t : FileTree} {loc rest : Location} {entry : Entry}
    (h : t.lookup (loc ++ rest) = some entry) :
  t.lookup loc = some .dir ∨ rest = [] ∧ t.lookup loc = some entry ∧ entry ≠ .dir
  := by
  by_cases hrest : rest = []
  · rw [hrest, List.append_nil] at h
    by_cases hdir : entry = .dir
    · left
      rw [h, hdir]
    · right
      exact ⟨hrest, h, hdir⟩
  · left
    apply lookup_of_append hrest h

/-- There is nothing below where nothing is. -/
theorem lookup_append_eq_none {t : FileTree} {loc : Location} (h : t.lookup loc = none)
    (rest : Location) :
  t.lookup (loc ++ rest) = none
  := by
  by_cases hrest : rest = []
  · rw [hrest, List.append_nil, h]
  · by_contra hne
    obtain ⟨entry, hentry⟩ := Option.ne_none_iff_exists'.mp hne
    rw [lookup_of_append hrest hentry] at h
    cases h

/-- The directory of a location. -/
theorem lookup_dropLast {t : FileTree} {loc : Location} (h : t.lookup loc = some .dir) :
  t.lookup loc.dropLast = some .dir
  := by
  induction loc using List.reverseRecOn with
  | nil => apply h
  | append_singleton loc name _ =>
      rw [List.dropLast_concat]
      apply lookup_parent h

/-- The names in a directory, in the order in which it is listed. -/
def names (t : FileTree) (loc : Location) : List String :=
  t.entries.rows.filterMap fun item =>
    if item.1.dropLast = loc then item.1.getLast? else none

/-- The names in a directory are those of the entries in it. -/
theorem mem_names {t : FileTree} {loc : Location} {name : String} :
  name ∈ t.names loc ↔ ∃ entry, t.lookup (loc ++ [name]) = some entry
  := by
  simp only [names, List.mem_filterMap, lookup, Option.map_eq_some_iff, Table.find?_eq_some_iff]
  constructor
  · rintro ⟨item, hitem, hname⟩
    split at hname
    · rename_i hloc
      obtain ⟨front, hfront⟩ := List.getLast?_eq_some_iff.mp hname
      rw [hfront, List.dropLast_concat] at hloc
      rw [hloc] at hfront
      exact ⟨item.2, item, ⟨hitem, hfront⟩, rfl⟩
    · cases hname
  · rintro ⟨entry, item, ⟨hitem, hloc⟩, -⟩
    use item, hitem
    rw [hloc, List.dropLast_concat, if_pos rfl, List.getLast?_concat]

/-- A name is listed once. -/
theorem nodup_names (t : FileTree) (loc : Location) :
  (t.names loc).Nodup
  := by
  have hkeys : t.names loc = (t.entries.rows.map Prod.fst).filterMap fun key =>
      if key.dropLast = loc then key.getLast? else none := by
    rw [List.filterMap_map]
    rfl
  rw [hkeys]
  apply List.Nodup.filterMap _ t.entries.nodup
  intro key key' name hkey hkey'
  have hlast : ∀ {key : Location},
      name ∈ (if key.dropLast = loc then key.getLast? else none) → key = loc ++ [name] := by
    intro key h
    split at h
    · rename_i hloc
      obtain ⟨front, rfl⟩ := List.getLast?_eq_some_iff.mp h
      rw [List.dropLast_concat] at hloc
      rw [hloc]
    · cases h
  rw [hlast hkey, hlast hkey']

/-- How many levels a tree has. -/
def depth (t : FileTree) : ℕ :=
  (t.entries.rows.map fun item => item.1.length).foldr max 0

/-- No location is deeper. -/
theorem length_le_depth {t : FileTree} {loc : Location} {entry : Entry}
    (h : t.lookup loc = some entry) :
  loc.length ≤ t.depth
  := by
  obtain ⟨item, hitem, -⟩ := Option.map_eq_some_iff.mp h
  obtain ⟨hmem, rfl⟩ := Table.find?_eq_some_iff.mp hitem
  rw [depth]
  generalize t.entries.rows = rows at hmem
  induction rows with
  | nil => cases hmem
  | cons row rows ih =>
      rw [List.map_cons, List.foldr_cons]
      rcases List.mem_cons.mp hmem with rfl | hmem
      · apply le_max_left
      · apply le_trans (ih hmem) (le_max_right _ _)

/-! ### Changing a tree -/

/-- Keep the entries at some locations, which must be in directories that are kept too. -/
def restrict (t : FileTree) (keep : Location → Bool) (hroot : keep [] = true)
    (hparent : ∀ loc name, keep (loc ++ [name]) = true → keep loc = true) : FileTree where
  entries := t.entries.filter keep
  root := by
    obtain ⟨item, hitem, hdir⟩ := t.root
    use item
    rw [Table.find?_filter, if_pos hroot]
    exact ⟨hitem, hdir⟩
  parent := by
    intro loc name item hitem
    rw [Table.find?_filter] at hitem
    split at hitem
    · rename_i hkeep
      obtain ⟨above, habove, hdir⟩ := t.parent loc name item hitem
      use above
      rw [Table.find?_filter, if_pos (hparent loc name hkeep)]
      exact ⟨habove, hdir⟩
    · cases hitem

/-- Remove what is at a location and everything below it; the root stays. -/
def remove (t : FileTree) (loc : Location) : FileTree :=
  t.restrict (fun key => loc = [] ∨ ¬ loc <+: key)
    (by simp [List.prefix_nil])
    (by
      intro key name hkey
      simp only [decide_eq_true_eq] at hkey ⊢
      apply hkey.imp_right
      intro hname habove
      apply hname (habove.trans (List.prefix_append key [name])))

/-- Remove everything below a location. -/
def removeBelow (t : FileTree) (loc : Location) : FileTree :=
  t.restrict (fun key => ¬ (loc <+: key ∧ key ≠ loc))
    (by
      simp only [decide_eq_true_eq, List.prefix_nil]
      rintro ⟨rfl, h⟩
      apply h rfl)
    (by
      intro key name hkey
      simp only [decide_eq_true_eq] at hkey ⊢
      rintro ⟨habove, -⟩
      apply hkey
      constructor
      · apply habove.trans (List.prefix_append key [name])
      · rintro rfl
        have hlength := habove.length_le
        rw [List.length_append, List.length_singleton] at hlength
        omega)

/-- What is left when something is removed. -/
theorem lookup_remove {t : FileTree} {loc : Location} (hne : loc ≠ []) (q : Location) :
  (t.remove loc).lookup q = if loc <+: q then none else t.lookup q
  := by
  rw [lookup, remove, restrict, Table.find?_filter]
  by_cases hbelow : loc <+: q
  · rw [if_neg (by simp [hne, hbelow]), if_pos hbelow, Option.map_none]
  · rw [if_pos (by simp [hbelow]), if_neg hbelow, lookup]

/-- What is left when everything below a location is removed. -/
theorem lookup_removeBelow (t : FileTree) (loc q : Location) :
  (t.removeBelow loc).lookup q = if loc <+: q ∧ q ≠ loc then none else t.lookup q
  := by
  rw [lookup, removeBelow, restrict, Table.find?_filter]
  by_cases hbelow : loc <+: q ∧ q ≠ loc
  · rw [if_neg (by simp [hbelow]), if_pos hbelow, Option.map_none]
  · rw [if_pos (decide_eq_true hbelow), if_neg hbelow, lookup]

/-- Nothing is in a directory below which everything was removed. -/
theorem names_removeBelow (t : FileTree) (loc : Location) :
  (t.removeBelow loc).names loc = []
  := by
  rw [List.eq_nil_iff_forall_not_mem]
  intro name hname
  obtain ⟨entry, hentry⟩ := mem_names.mp hname
  rw [lookup_removeBelow, if_pos ⟨List.prefix_append loc [name], by simp⟩] at hentry
  cases hentry

/-- Make a new entry in a directory. -/
def create (t : FileTree) (loc : Location) (name : String) (entry : Entry) : Option FileTree :=
  match h : t.entries.insert (loc ++ [name], entry) with
  | none => none
  | some entries =>
      if hdir : t.lookup loc = some .dir then
        some
          { entries := entries
            root := by
              obtain ⟨item, hitem, hentry⟩ := t.root
              use item
              rw [Table.find?_insert h, if_neg (by simp)]
              exact ⟨hitem, hentry⟩
            parent := by
              intro key name' item hitem
              rw [Table.find?_insert h] at hitem
              have hkey : ∃ above, t.entries.find? key = some above ∧ above.2 = .dir := by
                split at hitem
                · rename_i heq
                  rw [← (List.append_inj' heq rfl).1]
                  apply Option.map_eq_some_iff.mp hdir
                · apply t.parent key name' item hitem
              obtain ⟨above, habove, hentry⟩ := hkey
              rw [Table.find?_insert h]
              split
              · rename_i heq
                exfalso
                have hnew := Table.insert_eq_none_iff.not.mp (by rw [h]; simp)
                apply hnew
                use above
                rw [← habove]
                apply congrArg t.entries.find? heq
              · use above }
      else none

/-- A new entry is made in a directory in which there is none of its name. -/
theorem create_isSome {t : FileTree} {loc : Location} {name : String} {entry : Entry} :
  (t.create loc name entry).isSome ↔ t.lookup loc = some .dir ∧ t.lookup (loc ++ [name]) = none
  := by
  rw [create]
  split
  · rename_i hinsert
    obtain ⟨item, hitem⟩ := Table.insert_eq_none_iff.mp hinsert
    have hthere : t.lookup (loc ++ [name]) = some item.2 := by
      rw [lookup, hitem, Option.map_some]
    simp [hthere]
  · rename_i entries hinsert
    have hnew : t.lookup (loc ++ [name]) = none := by
      cases hfind : t.entries.find? (loc ++ [name]) with
      | none => rw [lookup, hfind, Option.map_none]
      | some item =>
          rw [Table.insert_eq_none_iff.mpr ⟨item, hfind⟩] at hinsert
          cases hinsert
    split
    · rename_i hdir
      simp [hdir, hnew]
    · rename_i hdir
      simp [hdir]

/-- What is there after a new entry was made. -/
theorem lookup_create {t t' : FileTree} {loc : Location} {name : String} {entry : Entry}
    (h : t.create loc name entry = some t') (q : Location) :
  t'.lookup q = if q = loc ++ [name] then some entry else t.lookup q
  := by
  rw [create] at h
  split at h
  · cases h
  · rename_i entries hinsert
    split at h
    · cases h
      rw [lookup, Table.find?_insert hinsert]
      split
      · rename_i hq
        rw [if_pos hq.symm, Option.map_some]
      · rename_i hq
        rw [if_neg (Ne.symm hq), lookup]
    · cases h

/-- Put a file in the place of one. -/
def rewrite (t : FileTree) (loc : Location) (content : List UInt8)
    (hfile : ∃ old, t.lookup loc = some (.file old)) : FileTree where
  entries := t.entries.replace (loc, .file content)
  root := by
    obtain ⟨item, hitem, hdir⟩ := t.root
    use item
    rw [Table.find?_replace, hitem, Option.map_some, if_neg]
    · exact ⟨rfl, hdir⟩
    · rintro rfl
      obtain ⟨old, hold⟩ := hfile
      rw [lookup_nil] at hold
      cases hold
  parent := by
    intro key name item hitem
    rw [Table.find?_replace] at hitem
    obtain ⟨item', hitem', -⟩ := Option.map_eq_some_iff.mp hitem
    obtain ⟨above, habove, hdir⟩ := t.parent key name item' hitem'
    use above
    rw [Table.find?_replace, habove, Option.map_some, if_neg]
    · exact ⟨rfl, hdir⟩
    · rintro rfl
      obtain ⟨old, hold⟩ := hfile
      rw [lookup, habove, Option.map_some, hdir] at hold
      cases hold

/-! ### Following a path -/

/-- Where a name leads that is no entry's: the empty name and `.` stay in the directory, `..` leaves
it. -/
def dots (loc : Location) (name : String) : Option Location :=
  if name = "" ∨ name = "." then some loc
  else if name = ".." then some loc.dropLast
  else none

/-- Whether a name can be an entry's. -/
def Plain (name : String) : Prop :=
  name ∉ ["", ".", ".."]

instance : DecidablePred Plain := fun name => inferInstanceAs (Decidable (name ∉ ["", ".", ".."]))

/-- A name leads somewhere by itself unless it can be an entry's. -/
theorem dots_eq_none_iff {loc : Location} {name : String} :
  dots loc name = none ↔ Plain name
  := by
  rw [dots, Plain]
  split
  · rename_i h
    rcases h with rfl | rfl
    all_goals simp
  · rename_i h
    split
    · rename_i h'
      simp [h']
    · rename_i h'
      push Not at h
      simp [h, h']

/-- It leads to a directory from a directory. -/
theorem lookup_dots {t : FileTree} {loc loc' : Location} {name : String}
    (h : dots loc name = some loc') (hloc : t.lookup loc = some .dir) :
  t.lookup loc' = some .dir
  := by
  rw [dots] at h
  split at h
  · cases h
    apply hloc
  · split at h
    · cases h
      apply lookup_dropLast hloc
    · cases h

/-- Follow one more link, if that is allowed. -/
def followLink {α : Type} (next : ℕ → Option α) : ℕ → Option α
  | 0 => none
  | links + 1 => next links

/-- The location that the names of a path lead to from a directory, where `link` says where a path leads
that begins with what a link leads to. -/
def resolveNames (t : FileTree) (follow : Bool) (link : Location → List String → Option Location) :
    Location → List String → Option Location
  | loc, [] => some loc
  | loc, name :: rest =>
      match dots loc name with
      | some loc' => t.resolveNames follow link loc' rest
      | none =>
          match t.lookup (loc ++ [name]) with
          | none => none
          | some .dir => t.resolveNames follow link (loc ++ [name]) rest
          | some (.file _) => if rest = [] then some (loc ++ [name]) else none
          | some (.link absolute target) =>
              if rest = [] ∧ follow = false then some (loc ++ [name])
              else link (if absolute then [] else loc) (target ++ rest)

/-- The location that the names of a path lead to from a directory, by at most so many links.  A link is
followed on the way, and at the end of the path if `follow` says so. -/
def resolve (t : FileTree) (follow : Bool) : ℕ → Location → List String → Option Location
  | 0 => t.resolveNames follow fun _ _ => none
  | links + 1 => t.resolveNames follow (t.resolve follow links)

/-- A location is looked up on the way of a path. -/
inductive LooksUp (t : FileTree) (follow : Bool) : ℕ → Location → List String → Location → Prop
  | here {links loc name rest} (hname : dots loc name = none) :
      LooksUp t follow links loc (name :: rest) (loc ++ [name])
  | dots {links loc loc' name rest q} (hname : dots loc name = some loc')
      (hrest : LooksUp t follow links loc' rest q) : LooksUp t follow links loc (name :: rest) q
  | dir {links loc name rest q} (hname : FileTree.dots loc name = none)
      (hentry : t.lookup (loc ++ [name]) = some .dir)
      (hrest : LooksUp t follow links (loc ++ [name]) rest q) :
      LooksUp t follow links loc (name :: rest) q
  | link {links loc name rest q absolute target} (hname : FileTree.dots loc name = none)
      (hentry : t.lookup (loc ++ [name]) = some (.link absolute target))
      (hgo : ¬ (rest = [] ∧ follow = false))
      (hrest : LooksUp t follow links (if absolute then [] else loc) (target ++ rest) q) :
      LooksUp t follow (links + 1) loc (name :: rest) q

/-- The location of the file that a path opens for writing, which may be a new one: the last name of the
way may be missing in its directory. -/
def openedNames (t : FileTree) (link : Location → List String → Option Location) :
    Location → List String → Option Location
  | loc, [] => some loc
  | loc, name :: rest =>
      match dots loc name with
      | some loc' => t.openedNames link loc' rest
      | none =>
          match t.lookup (loc ++ [name]) with
          | none => if rest = [] then some (loc ++ [name]) else none
          | some .dir => t.openedNames link (loc ++ [name]) rest
          | some (.file _) => if rest = [] then some (loc ++ [name]) else none
          | some (.link absolute target) => link (if absolute then [] else loc) (target ++ rest)

/-- The location of the file that a path opens for writing, by at most so many links. -/
def opened (t : FileTree) : ℕ → Location → List String → Option Location
  | 0 => t.openedNames fun _ _ => none
  | links + 1 => t.openedNames (t.opened links)

/-- What is shown of a path by its first name, and of what follows after a link by one link less. -/
theorem follow_induction {P : ℕ → Location → List String → Prop}
    (nil : ∀ links loc, P links loc [])
    (cons : ∀ links loc name rest, (∀ loc, P links loc rest) →
      (∀ fewer, links = fewer + 1 → ∀ loc path, P fewer loc path) → P links loc (name :: rest))
    (links : ℕ) (loc : Location) (path : List String) :
  P links loc path
  := by
  induction links generalizing loc path with
  | zero =>
      induction path generalizing loc with
      | nil => apply nil
      | cons name rest ih =>
          apply cons 0 loc name rest ih
          intro fewer h
          cases h
  | succ links ih =>
      induction path generalizing loc with
      | nil => apply nil
      | cons name rest ih' =>
          apply cons (links + 1) loc name rest ih'
          intro fewer h
          cases h
          apply ih

section

variable {t t' : FileTree} {follow : Bool} {links : ℕ} {loc : Location} {path : List String}

@[simp]
theorem resolve_nil :
  t.resolve follow links loc [] = some loc
  := by
  cases links
  all_goals rfl

theorem resolve_cons {name : String} {rest : List String} :
  t.resolve follow links loc (name :: rest) =
    match dots loc name with
    | some loc' => t.resolve follow links loc' rest
    | none =>
        match t.lookup (loc ++ [name]) with
        | none => none
        | some .dir => t.resolve follow links (loc ++ [name]) rest
        | some (.file _) => if rest = [] then some (loc ++ [name]) else none
        | some (.link absolute target) =>
            if rest = [] ∧ follow = false then some (loc ++ [name])
            else followLink (fun fewer =>
              t.resolve follow fewer (if absolute then [] else loc) (target ++ rest)) links
  := by
  cases links
  all_goals rfl

/-- The root is not looked up. -/
theorem ne_nil_of_looksUp {q : Location} (h : t.LooksUp follow links loc path q) :
  q ≠ []
  := by
  induction h with
  | here hname => simp
  | dots hname hrest ih => apply ih
  | dir hname hentry hrest ih => apply ih
  | link hname hentry hgo hrest ih => apply ih

/-- What is looked up on the way is in a directory. -/
theorem lookup_dropLast_of_looksUp {q : Location} (hloc : t.lookup loc = some .dir)
    (h : t.LooksUp follow links loc path q) :
  t.lookup q.dropLast = some .dir
  := by
  induction h with
  | here hname =>
      rw [List.dropLast_concat]
      apply hloc
  | dots hname hrest ih => apply ih (lookup_dots hname hloc)
  | dir hname hentry hrest ih => apply ih hentry
  | link hname hentry hgo hrest ih =>
      apply ih
      split
      · apply lookup_nil
      · apply hloc

/-- What is looked up on the way of a path is looked up on the way of a longer one. -/
theorem LooksUp.append {q : Location} (h : t.LooksUp follow links loc path q) (more : List String) :
  t.LooksUp follow links loc (path ++ more) q
  := by
  induction h with
  | here hname => apply LooksUp.here hname
  | dots hname hrest ih => apply LooksUp.dots hname ih
  | dir hname hentry hrest ih => apply LooksUp.dir hname hentry ih
  | link hname hentry hgo hrest ih =>
      rw [List.append_assoc] at ih
      apply LooksUp.link hname hentry _ ih
      rintro ⟨hnil, hfollow⟩
      apply hgo ⟨(List.append_eq_nil_iff.mp hnil).1, hfollow⟩

/-- What is looked up is looked up in every tree with the same entries on the way. -/
theorem LooksUp.congr_of {q : Location} (h : t.LooksUp follow links loc path q)
    (hsame : ∀ q, t.LooksUp follow links loc path q → t'.lookup q = t.lookup q) :
  t'.LooksUp follow links loc path q
  := by
  induction h with
  | here hname => apply LooksUp.here hname
  | dots hname hrest ih =>
      apply LooksUp.dots hname
      apply ih
      intro q hq
      apply hsame q (LooksUp.dots hname hq)
  | dir hname hentry hrest ih =>
      apply LooksUp.dir hname
      · rw [hsame _ (LooksUp.here hname), hentry]
      · apply ih
        intro q hq
        apply hsame q (LooksUp.dir hname hentry hq)
  | link hname hentry hgo hrest ih =>
      apply LooksUp.link hname _ hgo
      · apply ih
        intro q hq
        apply hsame q (LooksUp.link hname hentry hgo hq)
      · rw [hsame _ (LooksUp.here hname), hentry]

/-- Nothing else is looked up there. -/
theorem LooksUp.congr {q : Location} (h : t'.LooksUp follow links loc path q)
    (hsame : ∀ q, t.LooksUp follow links loc path q → t'.lookup q = t.lookup q) :
  t.LooksUp follow links loc path q
  := by
  induction h with
  | here hname => apply LooksUp.here hname
  | dots hname hrest ih =>
      apply LooksUp.dots hname
      apply ih
      intro q hq
      apply hsame q (LooksUp.dots hname hq)
  | dir hname hentry hrest ih =>
      rw [hsame _ (LooksUp.here hname)] at hentry
      apply LooksUp.dir hname hentry
      apply ih
      intro q hq
      apply hsame q (LooksUp.dir hname hentry hq)
  | link hname hentry hgo hrest ih =>
      rw [hsame _ (LooksUp.here hname)] at hentry
      apply LooksUp.link hname hentry hgo
      apply ih
      intro q hq
      apply hsame q (LooksUp.link hname hentry hgo hq)

/-- A path leads to the same location in every tree with the same entries on the way. -/
theorem resolve_congr (hsame : ∀ q, t.LooksUp follow links loc path q → t'.lookup q = t.lookup q) :
  t'.resolve follow links loc path = t.resolve follow links loc path
  := by
  induction links, loc, path using follow_induction with
  | nil links loc => rw [resolve_nil, resolve_nil]
  | cons links loc name rest ihrest ihlink =>
      rw [resolve_cons, resolve_cons]
      cases hname : dots loc name with
      | some loc' =>
          apply ihrest
          intro q hq
          apply hsame q (LooksUp.dots hname hq)
      | none =>
          dsimp only
          rw [hsame _ (LooksUp.here hname)]
          cases hentry : t.lookup (loc ++ [name]) with
          | none => rfl
          | some entry =>
              cases entry with
              | file content => rfl
              | dir =>
                  apply ihrest
                  intro q hq
                  apply hsame q (LooksUp.dir hname hentry hq)
              | link absolute target =>
                  dsimp only
                  split
                  · rfl
                  · rename_i hgo
                    cases links with
                    | zero => rfl
                    | succ fewer =>
                        apply ihlink fewer rfl
                        intro q hq
                        apply hsame q (LooksUp.link hname hentry hgo hq)

/-- A path leads nowhere in a tree that lacks one of the entries on the way. -/
theorem LooksUp.resolve_eq_none {q : Location} (h : t.LooksUp follow links loc path q)
    (hsame : ∀ q, t'.lookup q = t.lookup q ∨ t'.lookup q = none) (hmissing : t'.lookup q = none) :
  t'.resolve follow links loc path = none
  := by
  induction h with
  | here hname =>
      rw [resolve_cons, hname]
      dsimp only
      rw [hmissing]
  | dots hname hrest ih =>
      rw [resolve_cons, hname]
      apply ih hmissing
  | dir hname hentry hrest ih =>
      rw [resolve_cons, hname]
      dsimp only
      rcases hsame _ with hthere | hnone
      · rw [hthere, hentry]
        apply ih hmissing
      · rw [hnone]
  | link hname hentry hgo hrest ih =>
      rw [resolve_cons, hname]
      dsimp only
      rcases hsame _ with hthere | hnone
      · rw [hthere, hentry]
        dsimp only
        rw [if_neg hgo]
        apply ih hmissing
      · rw [hnone]

/-- A path ends with a name that can be an entry's. -/
def EndsPlain (path : List String) : Prop :=
  ∃ name ∈ path.getLast?, Plain name

instance (path : List String) : Decidable (EndsPlain path) :=
  match h : path.getLast? with
  | none => isFalse (by simp [EndsPlain, h])
  | some name => decidable_of_iff (Plain name) (by simp [EndsPlain, h])

/-- The end of a path of one name. -/
theorem endsPlain_singleton {name : String} :
  EndsPlain [name] ↔ Plain name
  := by
  simp [EndsPlain]

/-- The end of a path that goes on. -/
theorem endsPlain_append {front rest : List String} (hne : rest ≠ []) :
  EndsPlain (front ++ rest) ↔ EndsPlain rest
  := by
  rw [EndsPlain, EndsPlain, List.getLast?_append_of_ne_nil _ hne]

/-- What a path with an entry's name at its end leads to is looked up on the way, and is there. -/
theorem looksUp_of_resolve {target : Location} (hends : EndsPlain path)
    (h : t.resolve false links loc path = some target) :
  t.LooksUp false links loc path target ∧ ∃ entry, t.lookup target = some entry
  := by
  induction links, loc, path using follow_induction with
  | nil links loc =>
      obtain ⟨name, hname, -⟩ := hends
      cases hname
  | cons links loc name rest ihrest ihlink =>
      rw [resolve_cons] at h
      have hrest : rest ≠ [] → EndsPlain rest := by
        intro hne
        rw [← List.singleton_append, endsPlain_append hne] at hends
        apply hends
      cases hname : dots loc name with
      | some loc' =>
          rw [hname] at h
          by_cases hnil : rest = []
          · rw [hnil] at hends
            rw [dots_eq_none_iff.mpr (endsPlain_singleton.mp hends)] at hname
            cases hname
          · obtain ⟨hlooks, hthere⟩ := ihrest loc' (hrest hnil) h
            exact ⟨LooksUp.dots hname hlooks, hthere⟩
      | none =>
          rw [hname] at h
          dsimp only at h
          cases hentry : t.lookup (loc ++ [name]) with
          | none =>
              rw [hentry] at h
              cases h
          | some entry =>
              rw [hentry] at h
              cases entry with
              | file content =>
                  dsimp only at h
                  split at h
                  · cases h
                    exact ⟨LooksUp.here hname, _, hentry⟩
                  · cases h
              | dir =>
                  dsimp only at h
                  by_cases hnil : rest = []
                  · rw [hnil, resolve_nil] at h
                    cases h
                    exact ⟨LooksUp.here hname, _, hentry⟩
                  · obtain ⟨hlooks, hthere⟩ := ihrest _ (hrest hnil) h
                    exact ⟨LooksUp.dir hname hentry hlooks, hthere⟩
              | link absolute names =>
                  dsimp only at h
                  by_cases hnil : rest = []
                  · rw [if_pos ⟨hnil, rfl⟩] at h
                    cases h
                    exact ⟨LooksUp.here hname, _, hentry⟩
                  · have hgo : ¬ (rest = [] ∧ false = false) := fun hstop => hnil hstop.1
                    rw [if_neg hgo] at h
                    cases links with
                    | zero => cases h
                    | succ fewer =>
                        obtain ⟨hlooks, hthere⟩ :=
                          ihlink fewer rfl _ _ ((endsPlain_append hnil).mpr (hrest hnil)) h
                        exact ⟨LooksUp.link hname hentry hgo hlooks, hthere⟩

/-- A path from a directory leads to a directory, or else ends with an entry's name. -/
theorem endsPlain_of_resolve {target : Location} (hloc : t.lookup loc = some .dir)
    (h : t.resolve false links loc path = some target) (hdir : t.lookup target ≠ some .dir) :
  EndsPlain path
  := by
  induction links, loc, path using follow_induction with
  | nil links loc =>
      rw [resolve_nil] at h
      cases h
      contradiction
  | cons links loc name rest ihrest ihlink =>
      rw [resolve_cons] at h
      have hrest : EndsPlain rest → EndsPlain (name :: rest) := by
        intro hends
        have hne : rest ≠ [] := by
          rintro rfl
          obtain ⟨last, hlast, -⟩ := hends
          cases hlast
        rw [← List.singleton_append, endsPlain_append hne]
        apply hends
      cases hname : dots loc name with
      | some loc' =>
          rw [hname] at h
          apply hrest (ihrest loc' (lookup_dots hname hloc) h)
      | none =>
          rw [hname] at h
          dsimp only at h
          by_cases hnil : rest = []
          · rw [hnil, endsPlain_singleton]
            apply dots_eq_none_iff.mp hname
          · apply hrest
            cases hentry : t.lookup (loc ++ [name]) with
            | none =>
                rw [hentry] at h
                cases h
            | some entry =>
                rw [hentry] at h
                cases entry with
                | file content =>
                    dsimp only at h
                    rw [if_neg hnil] at h
                    cases h
                | dir => apply ihrest _ hentry h
                | link absolute names =>
                    dsimp only at h
                    rw [if_neg (fun hstop => hnil hstop.1)] at h
                    cases links with
                    | zero => cases h
                    | succ fewer =>
                        apply (endsPlain_append hnil).mp
                        apply ihlink fewer rfl _ _ _ h
                        split
                        · apply lookup_nil
                        · apply hloc

/-- A path that goes on after a directory leads on from there. -/
theorem resolve_append {target : Location} (h : t.resolve follow links loc path = some target)
    (hdir : t.lookup target = some .dir) :
  ∃ left, ∀ rest, t.resolve follow links loc (path ++ rest) = t.resolve follow left target rest
  := by
  induction links, loc, path using follow_induction with
  | nil links loc =>
      rw [resolve_nil] at h
      cases h
      use links
      intro rest
      rw [List.nil_append]
  | cons links loc name path ihrest ihlink =>
      rw [resolve_cons] at h
      simp only [List.cons_append, resolve_cons]
      cases hname : dots loc name with
      | some loc' =>
          rw [hname] at h
          apply ihrest loc' h
      | none =>
          rw [hname] at h
          dsimp only at h ⊢
          cases hentry : t.lookup (loc ++ [name]) with
          | none =>
              rw [hentry] at h
              cases h
          | some entry =>
              rw [hentry] at h
              cases entry with
              | file content =>
                  dsimp only at h
                  split at h
                  · cases h
                    rw [hentry] at hdir
                    cases hdir
                  · cases h
              | dir => apply ihrest _ h
              | link absolute names =>
                  dsimp only at h
                  split at h
                  · cases h
                    rw [hentry] at hdir
                    cases hdir
                  · rename_i hgo
                    cases links with
                    | zero => cases h
                    | succ fewer =>
                        obtain ⟨left, hleft⟩ := ihlink fewer rfl _ _ h
                        use left
                        intro rest
                        dsimp only
                        rw [if_neg, ← hleft, List.append_assoc]
                        · rfl
                        · rintro ⟨hnil, hfollow⟩
                          apply hgo ⟨(List.append_eq_nil_iff.mp hnil).1, hfollow⟩

/-- A path leads somewhere when one does that goes on from it. -/
theorem isSome_resolve_of_append {rest : List String}
    (h : (t.resolve true links loc (path ++ rest)).isSome) :
  (t.resolve true links loc path).isSome
  := by
  induction links, loc, path using follow_induction with
  | nil links loc =>
      rw [resolve_nil]
      rfl
  | cons links loc name more ihrest ihlink =>
      rw [List.cons_append, resolve_cons] at h
      rw [resolve_cons]
      cases hname : dots loc name with
      | some loc' =>
          rw [hname] at h
          apply ihrest loc' h
      | none =>
          rw [hname] at h
          dsimp only at h ⊢
          cases hentry : t.lookup (loc ++ [name]) with
          | none =>
              rw [hentry] at h
              cases h
          | some entry =>
              rw [hentry] at h
              cases entry with
              | file content =>
                  dsimp only at h ⊢
                  split at h
                  · rename_i hnil
                    rw [if_pos (List.append_eq_nil_iff.mp hnil).1]
                    rfl
                  · cases h
              | dir => apply ihrest _ h
              | link absolute target =>
                  dsimp only at h ⊢
                  rw [if_neg (by simp)] at h ⊢
                  cases links with
                  | zero => cases h
                  | succ fewer =>
                      rw [← List.append_assoc] at h
                      apply ihlink fewer rfl _ _ h

/-- There is something where a path leads to. -/
theorem isSome_lookup_of_resolve {target : Location} (hloc : t.lookup loc = some .dir)
    (h : t.resolve true links loc path = some target) :
  (t.lookup target).isSome
  := by
  induction links, loc, path using follow_induction with
  | nil links loc =>
      rw [resolve_nil] at h
      cases h
      rw [hloc]
      rfl
  | cons links loc name rest ihrest ihlink =>
      rw [resolve_cons] at h
      cases hname : dots loc name with
      | some loc' =>
          rw [hname] at h
          apply ihrest loc' (lookup_dots hname hloc) h
      | none =>
          rw [hname] at h
          dsimp only at h
          cases hentry : t.lookup (loc ++ [name]) with
          | none =>
              rw [hentry] at h
              cases h
          | some entry =>
              rw [hentry] at h
              cases entry with
              | file content =>
                  dsimp only at h
                  split at h
                  · cases h
                    rw [hentry]
                    rfl
                  · cases h
              | dir => apply ihrest _ hentry h
              | link absolute names =>
                  dsimp only at h
                  rw [if_neg (by simp)] at h
                  cases links with
                  | zero => cases h
                  | succ fewer =>
                      apply ihlink fewer rfl _ _ _ h
                      split
                      · apply lookup_nil
                      · apply hloc

/-- A path leads to the same location without the slash at its end. -/
theorem resolve_of_concat {target : Location}
    (h : t.resolve true links loc (path ++ [""]) = some target) :
  t.resolve true links loc path = some target
  := by
  induction links, loc, path using follow_induction with
  | nil links loc =>
      rw [List.nil_append, resolve_cons] at h
      apply h
  | cons links loc name rest ihrest ihlink =>
      rw [List.cons_append, resolve_cons] at h
      rw [resolve_cons]
      cases hname : dots loc name with
      | some loc' =>
          rw [hname] at h
          apply ihrest loc' h
      | none =>
          rw [hname] at h
          dsimp only at h ⊢
          cases hentry : t.lookup (loc ++ [name]) with
          | none =>
              rw [hentry] at h
              cases h
          | some entry =>
              rw [hentry] at h
              cases entry with
              | file content =>
                  dsimp only at h
                  rw [if_neg (by simp)] at h
                  cases h
              | dir => apply ihrest _ h
              | link absolute names =>
                  dsimp only at h ⊢
                  rw [if_neg (by simp)] at h ⊢
                  cases links with
                  | zero => cases h
                  | succ fewer =>
                      apply ihlink fewer rfl
                      rw [List.append_assoc]
                      apply h

/-- A path that leads to no link leads to the same location when links are followed at its end; one that
leads nowhere leads nowhere then. -/
theorem resolve_true (h : ∀ target ∈ t.resolve false links loc path, ∀ absolute names,
      t.lookup target ≠ some (.link absolute names)) :
  t.resolve true links loc path = t.resolve false links loc path
  := by
  induction links, loc, path using follow_induction with
  | nil links loc => rw [resolve_nil, resolve_nil]
  | cons links loc name rest ihrest ihlink =>
      rw [resolve_cons] at h
      rw [resolve_cons, resolve_cons]
      cases hname : dots loc name with
      | some loc' =>
          rw [hname] at h
          apply ihrest loc' h
      | none =>
          rw [hname] at h
          dsimp only at h ⊢
          cases hentry : t.lookup (loc ++ [name]) with
          | none => rfl
          | some entry =>
              rw [hentry] at h
              cases entry with
              | file content => rfl
              | dir => apply ihrest _ h
              | link absolute target =>
                  dsimp only at h ⊢
                  by_cases hnil : rest = []
                  · rw [if_pos ⟨hnil, rfl⟩] at h
                    cases h _ rfl absolute target hentry
                  · have hstop : ¬ (rest = [] ∧ false = false) := fun hstop => hnil hstop.1
                    have hgo : ¬ (rest = [] ∧ true = false) := fun hstop => hnil hstop.1
                    rw [if_neg hstop] at h
                    rw [if_neg hgo, if_neg hstop]
                    cases links with
                    | zero => rfl
                    | succ fewer => apply ihlink fewer rfl _ _ h

end

/-! ### Slashes at the end of a path -/

/-- A path without the slashes at its end. -/
def trim (path : List String) : List String :=
  path.rdropWhile (· = "")

/-- `os.path.basename` of a path without the slashes at its end. -/
def basename (path : List String) : String :=
  (trim path).getLast?.getD ""

/-- `os.path.join` of a path and the names that lead on from there. -/
def joinPath (path rel : List String) : List String :=
  if path.getLast? = some "" then path.dropLast ++ rel else path ++ rel

/-- What is cut off. -/
theorem trim_append_replicate (path : List String) :
  ∃ k, trim path ++ List.replicate k "" = path
  := by
  induction path using List.reverseRecOn with
  | nil => exact ⟨0, rfl⟩
  | append_singleton path name ih =>
      obtain ⟨k, hk⟩ := ih
      by_cases hname : name = ""
      · use k + 1
        rw [trim, List.rdropWhile_concat, if_pos (decide_eq_true hname), List.replicate_succ',
          ← List.append_assoc, hname]
        rw [trim] at hk
        rw [hk]
      · use 0
        rw [trim, List.rdropWhile_concat, if_neg (by simpa using hname), List.replicate_zero,
          List.append_nil]

/-- Nothing is cut off a path that ends with an entry's name. -/
theorem trim_eq_self {path : List String} (h : EndsPlain path) :
  trim path = path
  := by
  obtain ⟨name, hname, hplain⟩ := h
  obtain ⟨front, rfl⟩ := List.getLast?_eq_some_iff.mp hname
  rw [trim, List.rdropWhile_concat, if_neg]
  rw [decide_eq_true_eq]
  rintro rfl
  apply hplain List.mem_cons_self

/-- Slashes after a path to a directory change nothing. -/
theorem resolve_append_replicate {t : FileTree} {follow : Bool} {links : ℕ} {loc target : Location}
    {path : List String} (h : t.resolve follow links loc path = some target)
    (hdir : t.lookup target = some .dir) (k : ℕ) :
  t.resolve follow links loc (path ++ List.replicate k "") = some target
  := by
  obtain ⟨left, hleft⟩ := resolve_append h hdir
  rw [hleft]
  induction k with
  | zero => apply resolve_nil
  | succ k ih =>
      rw [List.replicate_succ, resolve_cons]
      apply ih

/-! ### What the system says of a path -/

/-- How many links are followed on the way of a path. -/
def maxLinks : ℕ :=
  40

/-- The location of an entry, which may be a link. -/
def locate (t : FileTree) (path : List String) : Option Location :=
  t.resolve false maxLinks [] path

/-- A path to a directory leads there with the slashes at its end too. -/
theorem locate_of_trim {t : FileTree} {path : List String} {loc : Location}
    (h : t.locate (trim path) = some loc) (hdir : t.lookup loc = some .dir) :
  t.locate path = some loc
  := by
  obtain ⟨k, hk⟩ := trim_append_replicate path
  have hpath := resolve_append_replicate h hdir k
  rw [hk] at hpath
  apply hpath

/-- The location that a path leads to. -/
def realPath (t : FileTree) (path : List String) : Option Location :=
  t.resolve true maxLinks [] path

/-- A joined path goes on from where the first leads. -/
theorem joinPath_eq {t : FileTree} {path : List String} {loc : Location}
    (h : t.realPath path = some loc) (rel : List String) :
  ∃ head, joinPath path rel = head ++ rel ∧ t.realPath head = some loc
  := by
  rw [joinPath]
  split
  · rename_i hslash
    obtain ⟨front, rfl⟩ := List.getLast?_eq_some_iff.mp hslash
    use front
    constructor
    · rw [List.dropLast_concat]
    · apply resolve_of_concat h
  · use path

/-- `os.lstat`, as far as it fails or tells what an entry is. -/
def lstat (t : FileTree) (path : List String) : Option Entry :=
  (t.locate path).bind t.lookup

/-- `os.stat`, as far as it fails or tells what an entry is. -/
def stat (t : FileTree) (path : List String) : Option Entry :=
  (t.realPath path).bind t.lookup

/-- `os.path.exists`. -/
def pathExists (t : FileTree) (path : List String) : Bool :=
  (t.stat path).isSome

/-- What exists is what a path leads to. -/
theorem pathExists_iff {t : FileTree} {path : List String} :
  t.pathExists path = true ↔ (t.realPath path).isSome
  := by
  rw [pathExists, stat]
  cases hreal : t.realPath path with
  | none => simp
  | some target =>
      rw [Option.bind_some, isSome_lookup_of_resolve t.lookup_nil hreal]
      rfl

/-- A path exists when one does that goes on from it. -/
theorem pathExists_of_start {t : FileTree} {front path : List String} (hfront : front <+: path)
    (h : t.pathExists path = true) :
  t.pathExists front = true
  := by
  obtain ⟨rest, rfl⟩ := hfront
  rw [pathExists_iff] at h ⊢
  apply isSome_resolve_of_append h

/-- `os.path.isdir`. -/
def isDir (t : FileTree) (path : List String) : Bool :=
  t.stat path = some .dir

/-- `os.path.islink`. -/
def isLink (t : FileTree) (path : List String) : Bool :=
  match t.lstat path with
  | some (.link _ _) => true
  | _ => false

/-- A path that leads to a directory without being a link is the path of a directory. -/
theorem isDir_and_not_isLink (t : FileTree) (path : List String) :
  (t.isDir path && !t.isLink path) = true ↔ t.lstat path = some .dir
  := by
  rw [Bool.and_eq_true, isDir, isLink, Bool.not_eq_true', decide_eq_true_eq]
  by_cases hlink : ∃ absolute names, t.lstat path = some (.link absolute names)
  · obtain ⟨absolute, names, hlstat⟩ := hlink
    simp [hlstat]
  · have hstat : t.stat path = t.lstat path := by
      rw [stat, lstat, realPath, locate, resolve_true]
      intro target htarget absolute names hentry
      apply hlink ⟨absolute, names, ?_⟩
      rw [lstat, locate, Option.mem_def.mp htarget, Option.bind_some, hentry]
    rw [hstat]
    constructor
    · rintro ⟨hdir, -⟩
      apply hdir
    · intro hdir
      rw [hdir]
      exact ⟨rfl, rfl⟩

end FileTree
