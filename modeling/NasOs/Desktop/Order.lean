import NasOs.Desktop.Windows

/-!
# The order of the windows

What each action of the store does, said once: it changes nothing, takes a window away, or puts one under
an id that was made for it.  From this the order of the windows, the single instances, and the windows
that are maximized are each kept by every action, and along every run.
-/

/-! ### What one action does -/

theorem increment_of_lt {n : ℕ} (h : n < 2 ^ 53) :
  increment n = n + 1
  := if_pos h

theorem le_increment (n : ℕ) :
  n ≤ increment n
  := by
  rw [increment]
  split
  · omega
  · rfl

/-- No id that is made is inherited. -/
theorem makeWindowId_notMem (number now : ℕ) :
  makeWindowId number now ∉ inheritedNames
  := by
  have hhead : (makeWindowId number now).toList.head? = some 'w' := by
    rw [makeWindowId, String.append_assoc, String.append_assoc, String.toList_append]
    rfl
  have hnames : ∀ name ∈ inheritedNames, name.toList.head? ≠ some 'w' := by decide
  intro h
  apply hnames _ h hhead

/-- The number of an id is told by the id. -/
theorem makeWindowId_injective {number number' now now' : ℕ}
    (h : makeWindowId number now = makeWindowId number' now') :
  number = number'
  := by
  have hdigits : ∀ n : ℕ, '-' ∉ (toString n).toList := by
    intro n hmem
    have hdigit := Nat.isDigit_of_mem_toDigits (by decide) (by decide)
      (show '-' ∈ Nat.toDigits 10 n by simpa using hmem)
    cases hdigit
  have hsplit : ∀ n t : ℕ, Text.splitFirst '-' ((makeWindowId n t).toList.drop 4)
      = some ((toString n).toList, base36 t) := by
    intro n t
    have hlist : (makeWindowId n t).toList.drop 4 = (toString n).toList ++ '-' :: base36 t := by
      simp [makeWindowId]
    rw [hlist, Text.splitFirst_append (hdigits n)]
  have heq := hsplit number now
  rw [h, hsplit number' now', Option.some_inj, Prod.mk.injEq] at heq
  have hint := Text.int_toString number
  rw [← heq.1, Text.int_toString, Option.some_inj] at hint
  omega

namespace WmStore

variable {N : Type} {s : WmStore N}

/-- Every window is under an id that was made for it. -/
structure Own (s : WmStore N) : Prop where
  id_eq : ∀ row ∈ s.windows.rows, row.2.id = some row.1
  made : ∀ row ∈ s.windows.rows, ∃ number now, number ≤ s.nextId ∧ row.1 = makeWindowId number now
  placed : ∀ row ∈ s.windows.rows, row.2.geometry.isSome = true

/-- The key of a row is found with it. -/
theorem find?_of_mem {row : String × WindowInstance N} (h : row ∈ s.windows.rows) :
  s.windows.find? row.1 = some row
  := Table.find?_eq_some_iff.mpr ⟨h, rfl⟩

/-- A window that is not inherited is looked up in the record. -/
theorem window?_of_notMem {id : String} (h : id ∉ inheritedNames) {win : WindowInstance N}
    (hwin : s.window? id = some win) :
  s.windows.find? id = some (id, win)
  := by
  rw [window?] at hwin
  split at hwin
  · rename_i row hrow
    cases hwin
    obtain ⟨-, rfl⟩ := Table.find?_eq_some_iff.mp hrow
    exact hrow
  · rw [if_neg h] at hwin
    cases hwin

/-- A window that is nowhere is not in the record. -/
theorem find?_of_window?_eq_none {id : String} (h : s.window? id = none) :
  s.windows.find? id = none
  := by
  rw [window?] at h
  split at h
  · cases h
  · rename_i hnone
    exact hnone

/-- A window that is put under its own id leaves every window under its own. -/
theorem Own.put (h : s.Own) {id : String} {win : WindowInstance N} (t : ℕ) {n : ℕ} (hn : s.nextId ≤ n)
    (hid : win.id = some id) (hmade : ∃ number now, number ≤ n ∧ id = makeWindowId number now)
    (hplaced : win.geometry.isSome = true) :
  ((⟨s.windows, t, n⟩ : WmStore N).put id win).Own
  := by
  constructor
  · intro row hrow
    rcases Table.mem_put.mp hrow with rfl | ⟨hrow, -⟩
    · exact hid
    · apply h.id_eq row hrow
  · intro row hrow
    rcases Table.mem_put.mp hrow with rfl | ⟨hrow, -⟩
    · exact hmade
    · obtain ⟨number, now, hle, hkey⟩ := h.made row hrow
      exact ⟨number, now, hle.trans hn, hkey⟩
  · intro row hrow
    rcases Table.mem_put.mp hrow with rfl | ⟨hrow, -⟩
    · exact hplaced
    · apply h.placed row hrow

/-- A window that stays under its id leaves every window under its own. -/
theorem Own.put_of_find? (h : s.Own) {id : String} {win win' : WindowInstance N} (t : ℕ)
    (hfind : s.windows.find? id = some (id, win)) (hid : win'.id = win.id)
    (hplaced : win'.geometry.isSome = true) :
  ((⟨s.windows, t, s.nextId⟩ : WmStore N).put id win').Own
  := by
  obtain ⟨hmem, -⟩ := Table.find?_eq_some_iff.mp hfind
  apply h.put t le_rfl
  · rw [hid, h.id_eq _ hmem]
  · apply h.made _ hmem
  · exact hplaced

variable [Add N] [NatCast N] {a : WmAction N}

/-- What an action does. -/
inductive Change (s : WmStore N) (a : WmAction N) : WmStore N → Prop where
  | same (hopen : ∀ appId options saved now, a ≠ .open appId options saved now)
      (hfocus : ∀ id, a = .focus id → s.windows.find? id = none) : Change s a s
  | closed (id : String) (ha : a = .close id) : Change s a { s with windows := s.windows.erase id }
  | raised (id : String) (win : WindowInstance N) (hfind : s.windows.find? id = some (id, win))
      (htarget : s.target a = id)
      (ha : a = .focus id ∨ ∃ appId options saved now, a = .open appId options saved now) :
      Change s a ({ s with topZ := increment s.topZ }.put id
        { win with
          z := some (increment s.topZ)
          state := if win.state = some WindowState.minimized then some .normal else win.state })
  | moved (id : String) (win : WindowInstance N) (geometry : WindowGeometry N)
      (hfind : s.windows.find? id = some (id, win)) (hmax : win.state ≠ some .maximized)
      (ha : (∃ x y, a = .move id x y) ∨ ∃ w h, a = .resize id w h) :
      Change s a (s.put id { win with geometry := some geometry })
  | minimized (id : String) (win : WindowInstance N) (hfind : s.windows.find? id = some (id, win))
      (ha : a = .minimize id) : Change s a (s.put id { win with state := some .minimized })
  | maximized (id : String) (win : WindowInstance N) (hfind : s.windows.find? id = some (id, win))
      (ha : a = .toggleMaximize id) (hmax : win.state ≠ some .maximized) :
      Change s a (s.put id { win with state := some .maximized, restoreGeometry := win.geometry })
  | restored (id : String) (win : WindowInstance N) (hfind : s.windows.find? id = some (id, win))
      (ha : a = .toggleMaximize id) (hmax : win.state = some .maximized) :
      Change s a (s.put id { win with
        state := some .normal
        geometry := win.restoreGeometry.or win.geometry
        restoreGeometry := none })
  | opened (appId : String) (options : OpenWindowOptions N) (saved : Option (WindowGeometry N)) (now : ℕ)
      (geometry : WindowGeometry N) (ha : a = .open appId options saved now)
      (htarget : s.target a = makeWindowId (increment s.nextId) now)
      (hsingle : options.singleInstance = true → ∀ row ∈ s.windows.rows, row.2.appId ≠ some appId) :
      Change s a ({ s with topZ := increment s.topZ, nextId := increment s.nextId }.put
        (makeWindowId (increment s.nextId) now)
        ⟨some (makeWindowId (increment s.nextId) now), some appId, some options.title, some geometry, none,
          some (increment s.topZ), some .normal⟩)

/-- What `focus` does to a window that is not inherited. -/
theorem change_focus {id : String} (hid : id ∉ inheritedNames) (htarget : s.target a = id)
    (ha : a = .focus id ∨ ∃ appId options saved now, a = .open appId options saved now)
    (hopen : (∃ appId options saved now, a = .open appId options saved now) →
      s.windows.find? id ≠ none) :
  Change s a (s.focus id)
  := by
  rw [focus]
  cases hwin : s.window? id with
  | none =>
      have hnone := find?_of_window?_eq_none hwin
      apply Change.same
      · rintro appId options saved now rfl
        apply hopen ⟨_, _, _, _, rfl⟩ hnone
      · rintro id' rfl
        rcases ha with ha | ⟨_, _, _, _, ha⟩
        · cases ha
          exact hnone
        · cases ha
  | some win => exact Change.raised id win (window?_of_notMem hid hwin) htarget ha

/-- Every action on windows under their own ids does one of these. -/
theorem change_act (hs : s.Own) (ha : a.NamesOwn) :
  Change s a (s.act a)
  := by
  cases a with
  | «open» appId options saved now =>
      have hnew : ∀ hsingle : options.singleInstance = true →
            ∀ row ∈ s.windows.rows, row.2.appId ≠ some appId,
          s.openWindow appId options saved now = s.openNew appId options saved now →
            Change s (.open appId options saved now) (s.openWindow appId options saved now).2 := by
        intro hsingle heq
        rw [heq]
        apply Change.opened appId options saved now _ rfl _ hsingle
        rw [target, heq]
        rfl
      rw [act]
      cases hsingle : options.singleInstance with
      | false =>
          apply hnew
          · simp [hsingle]
          · rw [openWindow, if_neg (by simp [hsingle])]
      | true =>
          cases hfind : s.windows.rows.find? fun row => row.2.appId = some appId with
          | none =>
              apply hnew
              · intro _ row hrow happ
                have hnone := List.find?_eq_none.mp hfind row hrow
                apply hnone
                simp [happ]
              · rw [openWindow, if_pos hsingle, hfind]
          | some existing =>
              have hmem := List.mem_of_find?_eq_some hfind
              have heq : s.openWindow appId options saved now = (existing.1, s.focus existing.1) := by
                rw [openWindow, if_pos hsingle, hfind]
                dsimp only
                rw [hs.id_eq existing hmem]
                rfl
              obtain ⟨number, now', -, hmade⟩ := hs.made existing hmem
              rw [heq]
              apply change_focus
              · rw [hmade]
                apply makeWindowId_notMem
              · rw [target, heq]
              · right
                exact ⟨_, _, _, _, rfl⟩
              · intro _
                rw [find?_of_mem hmem]
                simp
  | close id =>
      rw [act, close]
      split
      · exact Change.closed id rfl
      · apply Change.same
        · simp
        · simp
  | focus id =>
      apply change_focus (ha id rfl) rfl
      · left
        rfl
      · rintro ⟨_, _, _, _, h⟩
        cases h
  | move id x y =>
      rw [act, move]
      cases hwin : s.window? id with
      | none => exact Change.same (by simp) (by simp)
      | some win =>
          dsimp only
          split
          · exact Change.same (by simp) (by simp)
          · rename_i hmax
            exact Change.moved id win _ (window?_of_notMem (ha id rfl) hwin) hmax (.inl ⟨x, y, rfl⟩)
  | resize id w h =>
      rw [act, resize]
      cases hwin : s.window? id with
      | none => exact Change.same (by simp) (by simp)
      | some win =>
          dsimp only
          split
          · exact Change.same (by simp) (by simp)
          · rename_i hmax
            exact Change.moved id win _ (window?_of_notMem (ha id rfl) hwin) hmax (.inr ⟨w, h, rfl⟩)
  | minimize id =>
      rw [act, minimize]
      cases hwin : s.window? id with
      | none => exact Change.same (by simp) (by simp)
      | some win => exact Change.minimized id win (window?_of_notMem (ha id rfl) hwin) rfl
  | toggleMaximize id =>
      rw [act, toggleMaximize]
      cases hwin : s.window? id with
      | none => exact Change.same (by simp) (by simp)
      | some win =>
          have hfind := window?_of_notMem (ha id rfl) hwin
          dsimp only
          split
          · rename_i hmax
            exact Change.restored id win hfind rfl hmax
          · rename_i hmax
            exact Change.maximized id win hfind rfl hmax

/-- Every window stays under its own id. -/
theorem Own.act (h : s.Own) (ha : a.NamesOwn) :
  (s.act a).Own
  := by
  have hchange := change_act h ha
  generalize s.act a = s' at hchange ⊢
  cases hchange with
  | same => exact h
  | closed id =>
      constructor
      · intro row hrow
        apply h.id_eq row (List.mem_filter.mp hrow).1
      · intro row hrow
        apply h.made row (List.mem_filter.mp hrow).1
      · intro row hrow
        apply h.placed row (List.mem_filter.mp hrow).1
  | raised id win hfind =>
      exact h.put_of_find? _ hfind rfl (h.placed _ (Table.find?_eq_some_iff.mp hfind).1)
  | moved id win geometry hfind => exact h.put_of_find? _ hfind rfl rfl
  | minimized id win hfind =>
      exact h.put_of_find? _ hfind rfl (h.placed _ (Table.find?_eq_some_iff.mp hfind).1)
  | maximized id win hfind =>
      exact h.put_of_find? _ hfind rfl (h.placed _ (Table.find?_eq_some_iff.mp hfind).1)
  | restored id win hfind =>
      have hplaced := h.placed _ (Table.find?_eq_some_iff.mp hfind).1
      exact h.put_of_find? _ hfind rfl (by simp [hplaced])
  | opened appId options saved now geometry =>
      exact h.put _ (le_increment _) rfl ⟨_, now, le_rfl, rfl⟩ rfl

/-! ### The order of the windows -/

omit [Add N] [NatCast N] in
/-- A window that keeps its place leaves the windows in order. -/
theorem Ordered.put (h : s.Ordered) {id : String} {win win' : WindowInstance N}
    (hfind : s.windows.find? id = some (id, win)) (hid : win'.id = win.id) (hz : win'.z = win.z) :
  (s.put id win').Ordered
  := by
  obtain ⟨hmem, -⟩ := Table.find?_eq_some_iff.mp hfind
  constructor
  · intro row hrow
    rcases Table.mem_put.mp hrow with rfl | ⟨hrow, -⟩
    · rw [hid, h.id_eq _ hmem]
    · apply h.id_eq row hrow
  · intro row hrow row' hrow' heq
    rcases Table.mem_put.mp hrow with rfl | ⟨hrow, hne⟩
    · rcases Table.mem_put.mp hrow' with rfl | ⟨hrow', hne'⟩
      · rfl
      · have hsame := h.z_injective _ hmem row' hrow' (hz.symm.trans heq)
        apply absurd (congrArg Prod.fst hsame).symm hne'
    · rcases Table.mem_put.mp hrow' with rfl | ⟨hrow', hne'⟩
      · have hsame := h.z_injective row hrow _ hmem (heq.trans hz)
        apply absurd (congrArg Prod.fst hsame) hne
      · exact h.z_injective row hrow row' hrow' heq
  · intro row hrow
    rcases Table.mem_put.mp hrow with rfl | ⟨hrow, -⟩
    · obtain ⟨z, hwin, hbounds⟩ := h.z_bounds _ hmem
      exact ⟨z, hz.trans hwin, hbounds⟩
    · apply h.z_bounds row hrow

omit [Add N] [NatCast N] in
/-- A window that gets the next place leaves the windows in order. -/
theorem Ordered.put_top (h : s.Ordered) {id : String} {win : WindowInstance N} (n : ℕ)
    (hid : win.id = some id) (hz : win.z = some (s.topZ + 1)) :
  ((⟨s.windows, s.topZ + 1, n⟩ : WmStore N).put id win).Ordered
  := by
  have hnew : ∀ row ∈ s.windows.rows, row.2.z ≠ some (s.topZ + 1) := by
    intro row hrow heq
    obtain ⟨z, hwin, -, hle⟩ := h.z_bounds row hrow
    rw [heq, Option.some_inj] at hwin
    omega
  constructor
  · intro row hrow
    rcases Table.mem_put.mp hrow with rfl | ⟨hrow, -⟩
    · exact hid
    · apply h.id_eq row hrow
  · intro row hrow row' hrow' heq
    rcases Table.mem_put.mp hrow with rfl | ⟨hrow, hne⟩
    · rcases Table.mem_put.mp hrow' with rfl | ⟨hrow', hne'⟩
      · rfl
      · apply absurd (heq.symm.trans hz) (hnew row' hrow')
    · rcases Table.mem_put.mp hrow' with rfl | ⟨hrow', hne'⟩
      · apply absurd (heq.trans hz) (hnew row hrow)
      · exact h.z_injective row hrow row' hrow' heq
  · intro row hrow
    rcases Table.mem_put.mp hrow with rfl | ⟨hrow, -⟩
    · exact ⟨s.topZ + 1, hz, Nat.le_add_left 1 _, le_rfl⟩
    · obtain ⟨z, hwin, hpos, hle⟩ := h.z_bounds row hrow
      exact ⟨z, hwin, hpos, hle.trans (Nat.le_succ _)⟩

omit [Add N] [NatCast N] in
/-- A window that gets the next place is on top. -/
theorem Ordered.onTop_put (h : s.Ordered) {id : String} {win : WindowInstance N} (n : ℕ)
    (hz : win.z = some (s.topZ + 1)) :
  ((⟨s.windows, s.topZ + 1, n⟩ : WmStore N).put id win).OnTop id
  := by
  refine ⟨win, s.topZ + 1, ?_, hz, ?_⟩
  · rw [WmStore.put, Table.find?_put, if_pos rfl]
  · intro row hrow hne
    rcases Table.mem_put.mp hrow with rfl | ⟨hrow, -⟩
    · contradiction
    · obtain ⟨z, hwin, -, hle⟩ := h.z_bounds row hrow
      exact ⟨z, hwin, Nat.lt_succ_of_le hle⟩

/-- An action leaves the windows in order. -/
theorem Ordered.act (h : s.Ordered) (hs : s.Own) (ha : s.Regular a) :
  (s.act a).Ordered
  := by
  obtain ⟨hnames, htop, -⟩ := ha
  have hchange := change_act hs hnames
  generalize s.act a = s' at hchange ⊢
  cases hchange with
  | same => exact h
  | closed id =>
      constructor
      · intro row hrow
        apply h.id_eq row (List.mem_filter.mp hrow).1
      · intro row hrow row' hrow'
        apply h.z_injective row (List.mem_filter.mp hrow).1 row' (List.mem_filter.mp hrow').1
      · intro row hrow
        apply h.z_bounds row (List.mem_filter.mp hrow).1
  | raised id win hfind =>
      rw [increment_of_lt htop]
      exact h.put_top _ (h.id_eq _ (Table.find?_eq_some_iff.mp hfind).1) rfl
  | moved id win geometry hfind => exact h.put hfind rfl rfl
  | minimized id win hfind => exact h.put hfind rfl rfl
  | maximized id win hfind => exact h.put hfind rfl rfl
  | restored id win hfind => exact h.put hfind rfl rfl
  | opened appId options saved now geometry =>
      rw [increment_of_lt htop]
      exact h.put_top _ rfl rfl

omit [Add N] [NatCast N] in
/-- Putting a window under an id changes no window under another. -/
theorem find?_put_of_ne {id id' : String} (hne : id' ≠ id) (t n : ℕ) (win : WindowInstance N) :
  ((⟨s.windows, t, n⟩ : WmStore N).put id win).windows.find? id' = s.windows.find? id'
  := by
  rw [WmStore.put, Table.find?_put, if_neg hne.symm]

/-- An action changes no other window than its own. -/
theorem find?_act_of_ne (hs : s.Own) (hnames : a.NamesOwn) {id : String} (hne : id ≠ s.target a) :
  (s.act a).windows.find? id = s.windows.find? id
  := by
  have hchange := change_act hs hnames
  generalize s.act a = s' at hchange ⊢
  cases hchange with
  | same => rfl
  | closed id' ha =>
      subst ha
      rw [Table.find?_erase]
      exact if_neg hne
  | raised id' win hfind htarget =>
      rw [htarget] at hne
      apply find?_put_of_ne hne
  | moved id' win geometry hfind hmax ha =>
      rcases ha with ⟨x, y, rfl⟩ | ⟨w, h, rfl⟩
      · apply find?_put_of_ne hne
      · apply find?_put_of_ne hne
  | minimized id' win hfind ha =>
      subst ha
      apply find?_put_of_ne hne
  | maximized id' win hfind ha =>
      subst ha
      apply find?_put_of_ne hne
  | restored id' win hfind ha =>
      subst ha
      apply find?_put_of_ne hne
  | opened appId options saved now geometry ha htarget =>
      rw [htarget] at hne
      apply find?_put_of_ne hne

/-- The window that an action opens or focuses is on top. -/
theorem Ordered.onTop_act (h : s.Ordered) (hs : s.Own) (ha : s.Regular a)
    (hraises : (∃ appId options saved now, a = .open appId options saved now)
      ∨ ∃ id, a = .focus id ∧ s.windows.find? id ≠ none) :
  (s.act a).OnTop (s.target a)
  := by
  obtain ⟨hnames, htop, -⟩ := ha
  have hchange := change_act hs hnames
  have hnot : ∀ {b : WmAction N}, (∀ appId options saved now, b ≠ .open appId options saved now) →
      (∀ id, b ≠ .focus id) → a ≠ b := by
    rintro b hopen hfocus rfl
    rcases hraises with ⟨_, _, _, _, rfl⟩ | ⟨_, rfl, -⟩
    · apply hopen _ _ _ _ rfl
    · apply hfocus _ rfl
  generalize hs' : s.act a = s' at hchange ⊢
  cases hchange with
  | same hopen hfocus =>
      rcases hraises with ⟨_, _, _, _, rfl⟩ | ⟨id, rfl, hfind⟩
      · apply absurd rfl (hopen _ _ _ _)
      · apply absurd (hfocus id rfl) hfind
  | raised id win hfind htarget =>
      rw [htarget, increment_of_lt htop]
      exact h.onTop_put _ rfl
  | opened appId options saved now geometry ha htarget =>
      rw [htarget, increment_of_lt htop]
      exact h.onTop_put _ rfl
  | closed id ha => apply absurd ha (hnot (by simp) (by simp))
  | moved id win geometry hfind hmax ha =>
      rcases ha with ⟨x, y, ha⟩ | ⟨w, h', ha⟩
      · apply absurd ha (hnot (by simp) (by simp))
      · apply absurd ha (hnot (by simp) (by simp))
  | minimized id win hfind ha => apply absurd ha (hnot (by simp) (by simp))
  | maximized id win hfind ha => apply absurd ha (hnot (by simp) (by simp))
  | restored id win hfind ha => apply absurd ha (hnot (by simp) (by simp))

/-- The counter does not go back. -/
theorem topZ_le_act (hs : s.Own) (hnames : a.NamesOwn) :
  s.topZ ≤ (s.act a).topZ
  := by
  have hchange := change_act hs hnames
  generalize s.act a = s' at hchange ⊢
  cases hchange with
  | raised id win hfind => apply le_increment
  | opened appId options saved now geometry => apply le_increment
  | _ => rfl

/-- What an action does to the order. -/
theorem Ordered.keepsOrder (h : s.Ordered) (hs : s.Own) (ha : s.Regular a) :
  s.KeepsOrder a
  := by
  constructor
  · apply topZ_le_act hs ha.1
  · rintro appId options saved now rfl
    apply h.onTop_act hs ha
    left
    exact ⟨_, _, _, _, rfl⟩
  · rintro id rfl hfind
    apply h.onTop_act hs ha
    right
    exact ⟨id, rfl, hfind⟩
  · intro id hne
    apply find?_act_of_ne hs ha.1 hne

/-! ### Single instances -/

omit [Add N] [NatCast N] in
/-- A window that stays one of its application leaves every single instance single. -/
theorem SingleInstances.put {actions : List (WmAction N)} (h : SingleInstances actions s) {id : String}
    {win win' : WindowInstance N} (t : ℕ) (hfind : s.windows.find? id = some (id, win))
    (happ : win'.appId = win.appId) :
  SingleInstances actions ((⟨s.windows, t, s.nextId⟩ : WmStore N).put id win')
  := by
  obtain ⟨hmem, -⟩ := Table.find?_eq_some_iff.mp hfind
  intro appId hsingle row hrow row' hrow' hwin hwin'
  rcases Table.mem_put.mp hrow with rfl | ⟨hrow, hne⟩
  · rcases Table.mem_put.mp hrow' with rfl | ⟨hrow', hne'⟩
    · rfl
    · have hsame := h appId hsingle _ hmem row' hrow' (happ.symm.trans hwin) hwin'
      apply absurd (congrArg Prod.fst hsame).symm hne'
  · rcases Table.mem_put.mp hrow' with rfl | ⟨hrow', hne'⟩
    · have hsame := h appId hsingle row hrow _ hmem hwin (happ.symm.trans hwin')
      apply absurd (congrArg Prod.fst hsame) hne
    · apply h appId hsingle row hrow row' hrow' hwin hwin'

/-- An action leaves every single instance single. -/
theorem SingleInstances.act {actions : List (WmAction N)} (h : SingleInstances actions s) (hs : s.Own)
    (hnames : a.NamesOwn) :
  SingleInstances (actions ++ [a]) (s.act a)
  := by
  have h : SingleInstances (actions ++ [a]) s := by
    intro appId hsingle
    apply h appId
    intro options saved now hmem
    apply hsingle options saved now (List.mem_append_left _ hmem)
  have hchange := change_act hs hnames
  generalize s.act a = s' at hchange ⊢
  cases hchange with
  | same => exact h
  | closed id =>
      intro appId hsingle row hrow row' hrow'
      apply h appId hsingle row (List.mem_filter.mp hrow).1 row' (List.mem_filter.mp hrow').1
  | raised id win hfind => exact h.put _ hfind rfl
  | moved id win geometry hfind => exact h.put _ hfind rfl
  | minimized id win hfind => exact h.put _ hfind rfl
  | maximized id win hfind => exact h.put _ hfind rfl
  | restored id win hfind => exact h.put _ hfind rfl
  | opened appId options saved now geometry ha htarget hnew =>
      intro appId' hsingle row hrow row' hrow' hwin hwin'
      rcases Table.mem_put.mp hrow with rfl | ⟨hrow, -⟩
      · rcases Table.mem_put.mp hrow' with rfl | ⟨hrow', -⟩
        · rfl
        · cases hwin
          apply absurd hwin' (hnew _ row' hrow')
          apply hsingle options saved now
          simp [ha]
      · rcases Table.mem_put.mp hrow' with rfl | ⟨hrow', -⟩
        · cases hwin'
          apply absurd hwin (hnew _ row hrow)
          apply hsingle options saved now
          simp [ha]
        · apply h appId' hsingle row hrow row' hrow' hwin hwin'

omit [Add N] [NatCast N] in
/-- Windows in order are told apart by their ids. -/
theorem Ordered.id_injective (h : s.Ordered) :
  ∀ row ∈ s.windows.rows, ∀ row' ∈ s.windows.rows, row.2.id = row'.2.id → row = row'
  := by
  intro row hrow row' hrow' heq
  rw [h.id_eq row hrow, h.id_eq row' hrow', Option.some_inj] at heq
  have hfind := find?_of_mem hrow
  rw [heq, find?_of_mem hrow'] at hfind
  exact (Option.some_inj.mp hfind).symm

omit [Add N] [NatCast N] in
/-- The empty desktop has no window. -/
theorem own_empty :
  (empty : WmStore N).Own
  := by
  constructor
  · intro row hrow
    cases hrow
  · intro row hrow
    cases hrow
  · intro row hrow
    cases hrow

/-- In every run on own names whose counters can count, the windows are told apart by ids and places,
a single instance is single, and every next action keeps the order. -/
theorem ordered_of_run {actions : List (WmAction N)} (hregular : machine.Along Regular empty actions)
    (hrun : machine.run empty actions = some s) :
  s.Ordered
    ∧ (∀ row ∈ s.windows.rows, ∀ row' ∈ s.windows.rows, row.2.id = row'.2.id → row = row')
    ∧ SingleInstances actions s ∧ ∀ a, s.Regular a → s.KeepsOrder a
  := by
  have hall : s.Own ∧ s.Ordered ∧ SingleInstances actions s := by
    induction actions using List.reverseRecOn generalizing s with
    | nil =>
        cases hrun
        refine ⟨own_empty, ⟨?_, ?_, ?_⟩, ?_⟩
        · intro row hrow
          cases hrow
        · intro row hrow
          cases hrow
        · intro row hrow
          cases hrow
        · intro appId _ row hrow
          cases hrow
    | append_singleton actions a ih =>
        rw [machine.run_append] at hrun
        obtain ⟨s₁, hfirst, hlast⟩ := Option.bind_eq_some_iff.mp hrun
        cases hlast
        obtain ⟨hbefore, hafter⟩ := machine.along_append.mp hregular
        obtain ⟨hown, hordered, hsingle⟩ := ih hbefore hfirst
        have ha := (hafter s₁ hfirst).1
        exact ⟨hown.act ha.1, hordered.act hown ha, hsingle.act hown ha.1⟩
  obtain ⟨hown, hordered, hsingle⟩ := hall
  exact ⟨hordered, hordered.id_injective, hsingle, fun a ha => hordered.keepsOrder hown ha⟩

end WmStore

/-- A window that opens once. -/
def plainOptions : OpenWindowOptions ℤ :=
  ⟨"Dashboard", ⟨some 40, some 40, some 400, some 300⟩, true⟩

/-- A window is opened, and opened again, which focuses it. -/
def openedTwice : List (WmAction ℤ) :=
  [.open "dashboard" plainOptions none 0, .open "dashboard" plainOptions none 1]

/-- The order holds after a window was opened twice. -/
theorem ordered_openedTwice :
  ∃ s, WmStore.machine.run WmStore.empty openedTwice = some s ∧ s.Ordered
    ∧ (∀ row ∈ s.windows.rows, ∀ row' ∈ s.windows.rows, row.2.id = row'.2.id → row = row')
    ∧ WmStore.SingleInstances openedTwice s ∧ ∀ a, s.Regular a → s.KeepsOrder a
  := by
  refine ⟨_, rfl, WmStore.ordered_of_run ?_ rfl⟩
  refine ⟨⟨?_, by decide, by decide⟩, ?_⟩
  · rintro id ⟨⟩
  · rintro s' ⟨⟩
    refine ⟨⟨?_, by decide, by decide⟩, ?_⟩
    · rintro id ⟨⟩
    · intro s' _
      trivial

/-- On the empty desktop, minimizing `constructor` makes a window that has no place. -/
theorem not_ordered_constructor :
  ∃ s, WmStore.machine.run (WmStore.empty : WmStore ℤ) [.minimize "constructor"] = some s ∧ ¬ s.Ordered
  := by
  refine ⟨_, rfl, ?_⟩
  intro h
  obtain ⟨z, hz, -⟩ := h.z_bounds _ List.mem_cons_self
  cases hz

namespace WmStore

variable {N : Type} {s : WmStore N} [Add N] [NatCast N] {a : WmAction N}

/-! ### Maximized windows -/

omit [Add N] [NatCast N] in
/-- A window that knows where to return to exactly if it is maximized leaves the windows so. -/
theorem Linked.put (h : s.Linked) {id : String} {win : WindowInstance N} (t n : ℕ)
    (hwin : win.restoreGeometry.isSome = true ↔ win.state = some .maximized) :
  ((⟨s.windows, t, n⟩ : WmStore N).put id win).Linked
  := by
  intro row hrow
  rcases Table.mem_put.mp hrow with rfl | ⟨hrow, -⟩
  · exact hwin
  · exact h row hrow

/-- An action that minimizes no maximized window leaves the windows so. -/
theorem Linked.act (h : s.Linked) (hs : s.Own) (ha : s.MinimizesNormal a) :
  (s.act a).Linked
  := by
  obtain ⟨hnames, hminimizes⟩ := ha
  have hchange := change_act hs hnames
  generalize s.act a = s' at hchange ⊢
  cases hchange with
  | same => exact h
  | closed id =>
      intro row hrow
      apply h row (List.mem_filter.mp hrow).1
  | raised id win hfind =>
      apply h.put
      have hlink := h _ (Table.find?_eq_some_iff.mp hfind).1
      dsimp only at hlink ⊢
      split
      · rename_i hminimized
        rw [hlink, hminimized]
        simp
      · exact hlink
  | moved id win geometry hfind => exact h.put _ _ (h _ (Table.find?_eq_some_iff.mp hfind).1)
  | minimized id win hfind ha =>
      apply h.put
      have hlink := h _ (Table.find?_eq_some_iff.mp hfind).1
      dsimp only at hlink ⊢
      rw [hlink]
      simp [hminimizes id win ha hfind]
  | maximized id win hfind =>
      apply h.put
      simp [hs.placed _ (Table.find?_eq_some_iff.mp hfind).1]
  | restored id win hfind =>
      apply h.put
      simp
  | opened appId options saved now geometry =>
      apply h.put
      simp

/-- A window that is maximized after another action than to maximize it was so before, and knows where to
return to as before. -/
theorem of_maximized_act (hs : s.Own) (hnames : a.NamesOwn) {id : String} (ha : a ≠ .toggleMaximize id)
    {win' : WindowInstance N} (hfind' : (s.act a).windows.find? id = some (id, win'))
    (hmax' : win'.state = some .maximized) :
  ∃ win, s.windows.find? id = some (id, win) ∧ win.state = some .maximized
    ∧ win.restoreGeometry = win'.restoreGeometry
  := by
  have hput : ∀ {id' : String} {win₀ win₁ : WindowInstance N} (t n : ℕ),
      s.windows.find? id' = some (id', win₀) →
      (win₁.state = some .maximized → win₀.state = some .maximized
        ∧ win₀.restoreGeometry = win₁.restoreGeometry) →
      ((⟨s.windows, t, n⟩ : WmStore N).put id' win₁).windows.find? id = some (id, win') →
      ∃ win, s.windows.find? id = some (id, win) ∧ win.state = some .maximized
        ∧ win.restoreGeometry = win'.restoreGeometry := by
    intro id' win₀ win₁ t n hfind hkeeps hlast
    by_cases hid : id = id'
    · subst hid
      rw [WmStore.put, Table.find?_put, if_pos rfl] at hlast
      cases hlast
      exact ⟨win₀, hfind, hkeeps hmax'⟩
    · rw [find?_put_of_ne hid] at hlast
      exact ⟨win', hlast, hmax', rfl⟩
  have hchange := change_act hs hnames
  generalize s.act a = s' at hchange hfind'
  cases hchange with
  | same => exact ⟨win', hfind', hmax', rfl⟩
  | closed id' =>
      rw [Table.find?_erase] at hfind'
      split at hfind'
      · cases hfind'
      · exact ⟨win', hfind', hmax', rfl⟩
  | raised id' win hfind =>
      apply hput _ _ hfind _ hfind'
      intro hmax
      dsimp only at hmax ⊢
      split at hmax
      · cases hmax
      · exact ⟨hmax, rfl⟩
  | moved id' win geometry hfind =>
      apply hput _ _ hfind _ hfind'
      intro hmax
      exact ⟨hmax, rfl⟩
  | minimized id' win hfind =>
      apply hput _ _ hfind _ hfind'
      intro hmax
      cases hmax
  | maximized id' win hfind htoggle =>
      have hid : id ≠ id' := by
        rintro rfl
        exact ha htoggle
      rw [find?_put_of_ne hid] at hfind'
      exact ⟨win', hfind', hmax', rfl⟩
  | restored id' win hfind htoggle =>
      have hid : id ≠ id' := by
        rintro rfl
        exact ha htoggle
      rw [find?_put_of_ne hid] at hfind'
      exact ⟨win', hfind', hmax', rfl⟩
  | opened appId options saved now geometry =>
      by_cases hid : id = makeWindowId (increment s.nextId) now
      · rw [WmStore.put, Table.find?_put, if_pos hid.symm] at hfind'
        cases hfind'
        cases hmax'
      · rw [find?_put_of_ne hid] at hfind'
        exact ⟨win', hfind', hmax', rfl⟩

/-- Every window stays under its own id along a run on own names. -/
theorem Own.of_run {actions : List (WmAction N)} {t : WmStore N} (hs : s.Own)
    (hnames : machine.Along (fun _ a => a.NamesOwn) s actions) (hrun : machine.run s actions = some t) :
  t.Own
  := by
  apply machine.run_invariant _ hs hnames hrun
  intro s a s' hs ha hstep
  cases hstep
  apply hs.act ha

/-- A window that is maximized after other actions than to maximize it was so before them, and knows where
to return to as before. -/
theorem of_maximized_run {between : List (WmAction N)} {t : WmStore N} (hs : s.Own)
    (hnames : machine.Along (fun _ a => a.NamesOwn) s between) (hrun : machine.run s between = some t)
    {id : String} (hnot : .toggleMaximize id ∉ between) {win' : WindowInstance N}
    (hfind' : t.windows.find? id = some (id, win')) (hmax' : win'.state = some .maximized) :
  ∃ win, s.windows.find? id = some (id, win) ∧ win.restoreGeometry = win'.restoreGeometry
  := by
  induction between using List.reverseRecOn generalizing t win' with
  | nil =>
      cases hrun
      exact ⟨win', hfind', rfl⟩
  | append_singleton between a ih =>
      rw [machine.run_append] at hrun
      obtain ⟨t₀, hfirst, hlast⟩ := Option.bind_eq_some_iff.mp hrun
      cases hlast
      obtain ⟨hbefore, hafter⟩ := machine.along_append.mp hnames
      rw [List.mem_append, not_or, List.mem_singleton] at hnot
      obtain ⟨win, hfind, hmax, heq⟩ := of_maximized_act (hs.of_run hbefore hfirst)
        (hafter t₀ hfirst).1 (Ne.symm hnot.2) hfind' hmax'
      rw [← heq]
      exact ih hbefore hfirst hnot.1 hfind hmax

/-- A window that is maximized returns to where it was. -/
theorem returnsAfter_of_namesOwn {between : List (WmAction N)} (hs : s.Own)
    (hnames : ∀ a ∈ between, a.NamesOwn) :
  s.ReturnsAfter between
  := by
  intro id win hfind hmax hnot t win' hrun hfind' hmax'
  have hwindow : s.window? id = some win := by rw [window?, hfind]
  have htoggle : s.act (.toggleMaximize id)
      = s.put id { win with state := some .maximized, restoreGeometry := win.geometry } := by
    rw [act, toggleMaximize, hwindow]
    exact if_neg hmax
  obtain ⟨hmem, -⟩ := Table.find?_eq_some_iff.mp hfind
  have hown : (s.act (.toggleMaximize id)).Own := by
    apply hs.act
    intro id' hid'
    cases hid'
    obtain ⟨number, now, -, hmade⟩ := hs.made _ hmem
    dsimp only at hmade
    rw [hmade]
    apply makeWindowId_notMem
  obtain ⟨win₁, hfind₁, hrestore⟩ :=
    of_maximized_run hown (machine.along_of_mem (fun a ha _ => hnames a ha) _) hrun hnot hfind' hmax'
  rw [htoggle, WmStore.put, Table.find?_put, if_pos rfl] at hfind₁
  cases hfind₁
  have hwindow' : t.window? id = some win' := by rw [window?, hfind']
  rw [act, toggleMaximize, hwindow']
  dsimp only
  rw [if_pos hmax', WmStore.put, Table.find?_put, if_pos rfl]
  refine ⟨_, rfl, rfl, ?_⟩
  have hplaced := hs.placed _ hmem
  rw [← hrestore]
  cases hgeometry : win.geometry with
  | none => simp [hgeometry] at hplaced
  | some geometry => simp

/-- In every run on own names that minimizes no maximized window, the windows know where to return to
exactly if they are maximized, and a window that is maximized returns to where it was, whatever is done in
between on own names. -/
theorem linked_of_run {actions : List (WmAction N)}
    (hminimizes : machine.Along MinimizesNormal empty actions)
    (hrun : machine.run empty actions = some s) :
  s.Linked
    ∧ ∀ between, (∀ a ∈ between, a.NamesOwn) → s.ReturnsAfter between
  := by
  have hboth : s.Own ∧ s.Linked := by
    apply machine.run_invariant _ _ hminimizes hrun
    · rintro s a s' ⟨hown, hlinked⟩ ha hstep
      cases hstep
      exact ⟨hown.act ha.1, hlinked.act hown ha⟩
    · use own_empty
      intro row hrow
      cases hrow
  use hboth.2
  intro between hbetween
  apply returnsAfter_of_namesOwn hboth.1 hbetween

end WmStore

/-- A window is opened and maximized, and restored. -/
def maximizedOnce : List (WmAction ℤ) :=
  [.open "dashboard" plainOptions none 0, .toggleMaximize "win-1-0"]

/-- A maximized window knows where to return to, and returns there. -/
theorem linked_maximizedOnce :
  ∃ s, WmStore.machine.run WmStore.empty maximizedOnce = some s ∧ s.Linked
    ∧ ∀ between, (∀ a ∈ between, a.NamesOwn) → s.ReturnsAfter between
  := by
  refine ⟨_, rfl, @WmStore.linked_of_run ℤ _ _ _ maximizedOnce ?_ rfl⟩
  refine ⟨⟨?_, ?_⟩, ?_⟩
  · rintro id ⟨⟩
  · rintro id win ⟨⟩
  · rintro s' ⟨⟩
    refine ⟨⟨?_, ?_⟩, ?_⟩
    · rintro id ⟨⟩
      decide
    · rintro id win ⟨⟩
    · intro s' _
      trivial

/-- A maximized window that is minimized still holds where to return to, and is not maximized. -/
theorem not_linked_minimized :
  ∃ s, WmStore.machine.run WmStore.empty (maximizedOnce ++ [.minimize "win-1-0"]) = some s ∧ ¬ s.Linked
  := by
  refine ⟨_, rfl, ?_⟩
  intro h
  have hlink := (h _ List.mem_cons_self).mp rfl
  cases hlink
