import NasOs.Library.FileTree

/-!
# Moving what is in a tree

What is at a location, with everything below it, is moved to another location at which there is nothing.
Nothing is lost by this: `Keeps t t' place` says that what is in the tree `t` is in `t'` at the places that
`place` tells, different entries at different places.  Changes that keep what is there can follow one
another.
-/

namespace FileTree

/-- Where a location is after what is at `src` was moved to `dst`. -/
def moved (src dst q : Location) : Location :=
  if src <+: q then dst ++ q.drop src.length else q

/-- What is at `src` can be moved to `dst`: there is something, and nothing at `dst`, which is in a directory
that is not moved itself. -/
structure Movable (t : FileTree) (src dst : Location) : Prop where
  there : t.lookup src ≠ none
  new : t.lookup dst = none
  dir : t.lookup dst.dropLast = some .dir
  outside : ¬ src <+: dst

instance (t : FileTree) (src dst : Location) : Decidable (Movable t src dst) :=
  decidable_of_iff
    (t.lookup src ≠ none ∧ t.lookup dst = none ∧ t.lookup dst.dropLast = some .dir ∧ ¬ src <+: dst)
    ⟨fun ⟨there, new, dir, outside⟩ => ⟨there, new, dir, outside⟩,
      fun h => ⟨h.there, h.new, h.dir, h.outside⟩⟩

section

variable {t : FileTree} {src dst : Location}

@[simp]
theorem moved_append (src dst rest : Location) :
  moved src dst (src ++ rest) = dst ++ rest
  := by
  rw [moved, if_pos (List.prefix_append src rest), List.drop_left]

theorem moved_of_not {q : Location} (h : ¬ src <+: q) :
  moved src dst q = q
  := if_neg h

/-- Nothing is below a location at which nothing is. -/
theorem Movable.not_below (h : Movable t src dst) {q : Location} {entry : Entry}
    (hq : t.lookup q = some entry) :
  ¬ dst <+: q
  := by
  rintro ⟨rest, rfl⟩
  rw [lookup_append_eq_none h.new] at hq
  cases hq

/-- The root is not moved. -/
theorem Movable.src_ne_nil (h : Movable t src dst) :
  src ≠ []
  := by
  rintro rfl
  apply h.outside List.nil_prefix

/-- Different entries are at different places after one was moved. -/
theorem moved_inj {p q : Location} (hp : ¬ dst <+: p) (hq : ¬ dst <+: q)
    (h : moved src dst p = moved src dst q) :
  p = q
  := by
  by_cases hp' : src <+: p
  · obtain ⟨rest, rfl⟩ := hp'
    rw [moved_append] at h
    by_cases hq' : src <+: q
    · obtain ⟨rest', rfl⟩ := hq'
      rw [moved_append, List.append_right_inj] at h
      rw [h]
    · rw [moved_of_not hq'] at h
      exfalso
      apply hq
      rw [← h]
      apply List.prefix_append
  · rw [moved_of_not hp'] at h
    by_cases hq' : src <+: q
    · obtain ⟨rest', rfl⟩ := hq'
      rw [moved_append] at h
      exfalso
      apply hp
      rw [h]
      apply List.prefix_append
    · rw [moved_of_not hq'] at h
      apply h

/-- The entries after what is at one location was moved to another. -/
def movedEntries (t : FileTree) (src dst : Location) (h : Movable t src dst) :
    Table (Prod.fst : Location × Entry → Location) :=
  ⟨t.entries.rows.map fun item => (moved src dst item.1, item.2), by
    rw [List.map_map]
    have hkeys : (t.entries.rows.map (Prod.fst ∘ fun item => (moved src dst item.1, item.2)))
        = (t.entries.rows.map Prod.fst).map (moved src dst) := by
      rw [List.map_map]
      rfl
    rw [hkeys]
    apply List.Nodup.map_on _ t.entries.nodup
    have hbelow : ∀ q ∈ t.entries.rows.map Prod.fst, ¬ dst <+: q := by
      intro q hq
      obtain ⟨item, hitem, rfl⟩ := List.mem_map.mp hq
      have hlookup : t.lookup item.1 = some item.2 := by
        rw [lookup, Table.find?_eq_some_iff.mpr ⟨hitem, rfl⟩, Option.map_some]
      apply h.not_below hlookup
    intro p hp q hq
    apply moved_inj (hbelow p hp) (hbelow q hq)⟩

/-- What is found after something was moved. -/
theorem find?_movedEntries (h : Movable t src dst) {q : Location} {item : Location × Entry} :
  (t.movedEntries src dst h).find? q = some item
    ↔ ∃ p, t.entries.find? p = some (p, item.2) ∧ moved src dst p = q ∧ item.1 = q
  := by
  simp only [Table.find?_eq_some_iff, movedEntries, List.mem_map]
  constructor
  · rintro ⟨⟨⟨p, entry⟩, hmem, rfl⟩, rfl⟩
    exact ⟨p, ⟨hmem, trivial⟩, rfl, rfl⟩
  · rintro ⟨p, ⟨hmem, -⟩, hplace, hkey⟩
    refine ⟨⟨(p, item.2), hmem, ?_⟩, hkey⟩
    rw [hplace, ← hkey]

/-- A directory that is not moved away is where it was. -/
theorem find?_movedEntries_dir (h : Movable t src dst) {loc : Location} (hloc : t.lookup loc = some .dir) :
  ∃ above, (t.movedEntries src dst h).find? (moved src dst loc) = some above ∧ above.2 = .dir
  := by
  obtain ⟨⟨key, entry⟩, hfind, rfl⟩ := Option.map_eq_some_iff.mp hloc
  obtain ⟨-, hkey⟩ := Table.find?_eq_some_iff.mp hfind
  cases hkey
  use (moved src dst key, .dir)
  constructor
  · apply (find?_movedEntries h).mpr
    exact ⟨key, hfind, rfl, rfl⟩
  · rfl

/-- Move what is at one location to another. -/
def relocate (t : FileTree) (src dst : Location) : Option FileTree :=
  if h : Movable t src dst then
    some
      { entries := t.movedEntries src dst h
        root := by
          obtain ⟨above, hfind, hdir⟩ := find?_movedEntries_dir h t.lookup_nil
          rw [moved_of_not (by rw [List.prefix_nil]; apply h.src_ne_nil)] at hfind
          use above
        parent := by
          intro loc name item hitem
          obtain ⟨p, hfind, hplace, -⟩ := (find?_movedEntries h).mp hitem
          have hp : t.lookup p = some item.2 := by rw [lookup, hfind, Option.map_some]
          by_cases hmoved : src <+: p
          · obtain ⟨rest, rfl⟩ := hmoved
            rw [moved_append] at hplace
            rcases List.eq_nil_or_concat rest with rfl | ⟨rest, last, rfl⟩
            · rw [List.append_nil] at hplace
              have hdir := h.dir
              rw [hplace, List.dropLast_concat] at hdir
              have hstays : ¬ src <+: loc := by
                intro habove
                apply h.outside
                rw [hplace]
                apply habove.trans (List.prefix_append loc [name])
              obtain ⟨above, habove, hentry⟩ := find?_movedEntries_dir h hdir
              rw [moved_of_not hstays] at habove
              use above
            · rw [List.concat_eq_append, ← List.append_assoc] at hplace
              rw [List.concat_eq_append, ← List.append_assoc] at hp
              obtain ⟨above, habove, hentry⟩ := find?_movedEntries_dir h (lookup_parent hp)
              rw [moved_append, (List.append_inj' hplace rfl).1] at habove
              use above
          · rw [moved_of_not hmoved] at hplace
            rw [hplace] at hp hmoved
            obtain ⟨above, habove, hentry⟩ := find?_movedEntries_dir h (lookup_parent hp)
            rw [moved_of_not fun hsrc => hmoved (hsrc.trans (List.prefix_append loc [name]))] at habove
            use above }
  else none

/-- Something is moved if and only if it can be. -/
theorem relocate_isSome :
  (t.relocate src dst).isSome ↔ Movable t src dst
  := by
  rw [relocate]
  split
  · simpa
  · simpa

/-- What was in the tree is there after something was moved. -/
theorem lookup_relocate {t' : FileTree} (h : t.relocate src dst = some t') {q : Location} {entry : Entry}
    (hq : t.lookup q = some entry) :
  t'.lookup (moved src dst q) = some entry
  := by
  rw [relocate] at h
  split at h
  · rename_i hmovable
    cases h
    obtain ⟨⟨key, entry⟩, hfind, rfl⟩ := Option.map_eq_some_iff.mp hq
    obtain ⟨-, hkey⟩ := Table.find?_eq_some_iff.mp hfind
    cases hkey
    apply Option.map_eq_some_iff.mpr
    exact ⟨(moved src dst key, entry), (find?_movedEntries hmovable).mpr ⟨key, hfind, rfl, rfl⟩, rfl⟩
  · cases h

end

/-! ### Keeping what is there -/

/-- What is in a tree is in another at the places that `place` tells, different entries at different
places. -/
structure Keeps (t t' : FileTree) (place : Location → Location) : Prop where
  there : ∀ q entry, t.lookup q = some entry → t'.lookup (place q) = some entry
  apart : ∀ p q, t.lookup p ≠ none → t.lookup q ≠ none → place p = place q → p = q

section

variable {t t' t'' : FileTree} {place place' : Location → Location}

/-- A tree keeps what is in it. -/
theorem Keeps.refl (t : FileTree) :
  Keeps t t id
  := ⟨fun _ _ h => h, fun _ _ _ _ h => h⟩

/-- A change after another. -/
theorem Keeps.trans (h : Keeps t t' place) (h' : Keeps t' t'' place') :
  Keeps t t'' (place' ∘ place)
  := by
  have hthere : ∀ q, t.lookup q ≠ none → t'.lookup (place q) ≠ none := by
    intro q hq
    obtain ⟨entry, hentry⟩ := Option.ne_none_iff_exists'.mp hq
    rw [h.there q entry hentry]
    simp
  constructor
  · intro q entry hq
    apply h'.there _ _ (h.there q entry hq)
  · intro p q hp hq heq
    apply h.apart p q hp hq
    apply h'.apart _ _ (hthere p hp) (hthere q hq) heq

/-- What is moved is kept. -/
theorem keeps_relocate {src dst : Location} (h : t.relocate src dst = some t') :
  Keeps t t' (moved src dst)
  := by
  have hmovable : Movable t src dst := relocate_isSome.mp (by rw [h]; rfl)
  have hbelow : ∀ q, t.lookup q ≠ none → ¬ dst <+: q := by
    intro q hq
    obtain ⟨entry, hentry⟩ := Option.ne_none_iff_exists'.mp hq
    apply hmovable.not_below hentry
  constructor
  · intro q entry hq
    apply lookup_relocate h hq
  · intro p q hp hq
    apply moved_inj (hbelow p hp) (hbelow q hq)

end

end FileTree
