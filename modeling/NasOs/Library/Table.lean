import Mathlib.Data.List.Nodup

/-!
# Tables with a unique key

A table is a list of rows no two of which have the same key.  A row is looked up by its key, added if
there is none of its key, replaced by one of the same key, or deleted.  What is found in a table after
one of these is told by what was found before.
-/

universe u v

/-- Rows of which no two have the same key. -/
structure Table {ρ : Type u} {κ : Type v} (key : ρ → κ) where
  rows : List ρ
  nodup : (rows.map key).Nodup

namespace Table

variable {ρ : Type u} {κ : Type v} [DecidableEq κ] {key : ρ → κ}

/-- The table without a row. -/
def empty : Table key :=
  ⟨[], List.nodup_nil⟩

/-- The row of a key. -/
def find? (t : Table key) (k : κ) : Option ρ :=
  t.rows.find? fun r => key r = k

/-- Add a row, if there is none of its key. -/
def insert (t : Table key) (r : ρ) : Option (Table key) :=
  if h : key r ∈ t.rows.map key then none
  else some ⟨t.rows ++ [r], by
    rw [List.map_append, List.map_singleton]
    apply t.nodup.append (List.nodup_singleton _)
    simpa using h⟩

/-- Put a row in the place of the one of its key. -/
def replace (t : Table key) (new : ρ) : Table key :=
  ⟨t.rows.map fun r => if key r = key new then new else r, by
    have hkeys : (t.rows.map fun r => if key r = key new then new else r).map key
        = t.rows.map key := by
      rw [List.map_map]
      apply List.map_congr_left
      intro r _
      simp only [Function.comp_apply]
      split
      · rename_i h
        exact h.symm
      · rfl
    rw [hkeys]
    apply t.nodup⟩

/-- Put a row in the place of the one of its key, or after the others if there is none. -/
def put (t : Table key) (r : ρ) : Table key :=
  (t.insert r).getD (t.replace r)

/-- Delete the row of a key. -/
def erase (t : Table key) (k : κ) : Table key :=
  ⟨t.rows.filter fun r => key r ≠ k, t.nodup.sublist (List.filter_sublist.map key)⟩

/-- Keep the rows whose keys satisfy a condition. -/
def filter (t : Table key) (keep : κ → Bool) : Table key :=
  ⟨t.rows.filter fun r => keep (key r), t.nodup.sublist (List.filter_sublist.map key)⟩

/-- What is found is a row with the key. -/
theorem find?_eq_some_iff {t : Table key} {k : κ} {r : ρ} :
  t.find? k = some r ↔ r ∈ t.rows ∧ key r = k
  := by
  constructor
  · intro h
    constructor
    · apply List.mem_of_find?_eq_some h
    · simpa using List.find?_some h
  · rintro ⟨hr, rfl⟩
    obtain ⟨r', h⟩ : ∃ r', t.find? (key r) = some r' := by
      rw [← Option.isSome_iff_exists, find?, List.find?_isSome]
      use r, hr
      simp
    have hkey : key r' = key r := by simpa using List.find?_some h
    rw [h, List.inj_on_of_nodup_map t.nodup (List.mem_of_find?_eq_some h) hr hkey]

/-- Nothing is found when no row has the key. -/
theorem find?_eq_none_iff {t : Table key} {k : κ} :
  t.find? k = none ↔ ∀ r ∈ t.rows, key r ≠ k
  := by
  rw [find?, List.find?_eq_none]
  simp

@[simp]
theorem find?_empty (k : κ) :
  (empty : Table key).find? k = none
  := rfl

/-- A row is not added only when there is one of its key. -/
theorem insert_eq_none_iff {t : Table key} {r : ρ} :
  t.insert r = none ↔ ∃ r', t.find? (key r) = some r'
  := by
  simp only [find?_eq_some_iff, insert]
  split
  · rename_i h
    simpa using h
  · rename_i h
    simpa using h

/-- A row that is added is found, and so is what was found before. -/
theorem find?_insert {t t' : Table key} {r : ρ} (h : t.insert r = some t') (k : κ) :
  t'.find? k = if key r = k then some r else t.find? k
  := by
  rw [insert] at h
  split at h
  · cases h
  · rename_i hnew
    cases h
    split
    · rename_i hkey
      rw [find?_eq_some_iff]
      exact ⟨List.mem_append_right _ List.mem_cons_self, hkey⟩
    · rename_i hkey
      simp [find?, List.find?_append, hkey]

/-- A row that replaces one is found in its place. -/
theorem find?_replace (t : Table key) (new : ρ) (k : κ) :
  (t.replace new).find? k = (t.find? k).map fun r => if key new = k then new else r
  := by
  apply Option.ext
  intro r
  rw [Option.map_eq_some_iff]
  simp only [find?_eq_some_iff, replace, List.mem_map]
  constructor
  · rintro ⟨⟨r', hr', rfl⟩, hk⟩
    refine ⟨r', ⟨hr', ?_⟩, ?_⟩
    · split at hk
      · rename_i hkey
        rw [hkey, hk]
      · apply hk
    · split at hk
      · rename_i hkey
        rw [if_pos hk, if_pos hkey]
      · rename_i hkey
        rw [if_neg (fun h => hkey (hk.trans h.symm)), if_neg hkey]
  · rintro ⟨r', ⟨hr', rfl⟩, hnew⟩
    by_cases hkey : key new = key r'
    · rw [if_pos hkey] at hnew
      rw [← hnew]
      refine ⟨⟨r', hr', ?_⟩, hkey⟩
      rw [if_pos hkey.symm]
    · rw [if_neg hkey] at hnew
      rw [← hnew]
      refine ⟨⟨r', hr', ?_⟩, rfl⟩
      rw [if_neg (Ne.symm hkey)]

/-- A row that is put is found, and what else was found before is. -/
theorem find?_put (t : Table key) (r : ρ) (k : κ) :
  (t.put r).find? k = if key r = k then some r else t.find? k
  := by
  rw [put]
  cases hinsert : t.insert r with
  | some t' =>
      rw [Option.getD_some, find?_insert hinsert]
  | none =>
      obtain ⟨r', hfind⟩ := insert_eq_none_iff.mp hinsert
      rw [Option.getD_none, find?_replace]
      split
      · rename_i hkey
        rw [← hkey, hfind, Option.map_some]
      · rw [Option.map_id']

/-- The rows when one is put in the place of that of its key. -/
theorem mem_put {t : Table key} {r r' : ρ} :
  r' ∈ (t.put r).rows ↔ r' = r ∨ r' ∈ t.rows ∧ key r' ≠ key r
  := by
  have hfind : ∀ t : Table key, r' ∈ t.rows ↔ t.find? (key r') = some r' := by
    intro t
    rw [find?_eq_some_iff]
    simp
  rw [hfind, hfind t, find?_put]
  by_cases hkey : key r = key r'
  · rw [if_pos hkey, Option.some_inj]
    simp [hkey, eq_comm]
  · rw [if_neg hkey]
    constructor
    · intro h
      right
      exact ⟨h, Ne.symm hkey⟩
    · rintro (rfl | ⟨h, -⟩)
      · contradiction
      · apply h

/-- The rows that are left when those of some keys are deleted. -/
theorem mem_foldl_erase {t : Table key} {ks : List κ} {r : ρ} :
  r ∈ (ks.foldl erase t).rows ↔ r ∈ t.rows ∧ key r ∉ ks
  := by
  induction ks generalizing t with
  | nil => simp
  | cons k ks ih =>
      rw [List.foldl_cons, ih, erase, List.mem_filter]
      simp [and_assoc]

/-- A row that is deleted is not found, and what else was found before is. -/
theorem find?_erase (t : Table key) (k k' : κ) :
  (t.erase k).find? k' = if k' = k then none else t.find? k'
  := by
  split
  · rename_i hkey
    rw [find?_eq_none_iff, hkey]
    intro r hr
    simpa using (List.mem_filter.mp hr).2
  · rename_i hkey
    apply Option.ext
    intro r
    simp only [find?_eq_some_iff, erase, List.mem_filter, decide_eq_true_eq]
    constructor
    · rintro ⟨⟨hr, -⟩, hk⟩
      exact ⟨hr, hk⟩
    · rintro ⟨hr, rfl⟩
      exact ⟨⟨hr, hkey⟩, rfl⟩

/-- What is found among the rows that were kept. -/
theorem find?_filter (t : Table key) (keep : κ → Bool) (k : κ) :
  (t.filter keep).find? k = if keep k then t.find? k else none
  := by
  split
  · rename_i hkeep
    apply Option.ext
    intro r
    simp only [find?_eq_some_iff, filter, List.mem_filter]
    constructor
    · rintro ⟨⟨hr, -⟩, hk⟩
      exact ⟨hr, hk⟩
    · rintro ⟨hr, rfl⟩
      exact ⟨⟨hr, hkeep⟩, rfl⟩
  · rename_i hkeep
    rw [find?_eq_none_iff]
    rintro r hr rfl
    apply hkeep (List.mem_filter.mp hr).2

end Table
