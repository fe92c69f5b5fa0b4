import Mathlib.Algebra.Order.Ring.Defs
import Mathlib.Algebra.Order.Ring.Int
import NasOs.Desktop.Order

/-!
# The shell of the desktop

The components around the store of the windows: the launcher and the taskbar, and what a window does
with the events of a pointer on its title bar and on its resize handle.  A drag or a resize begins with
where the pointer and the window are, and every move of the pointer puts the window where the pointer has
got to from there, but not beyond the left and upper edges, nor below the smallest size of its
application.  What a window is moved or resized to is kept by the browser, and the next window of the
application opens there, also after the page was loaded anew.

Whatever is clicked and dragged in any order, no application has two windows, and every window can be
reached: it begins on the desktop, it is no smaller than its application allows, and so is what it returns
to and what is kept of it (`DesktopShell.reachable_of_run`).
-/

/-! ### Applications -/

/-- `AppSize`. -/
structure AppSize where
  w : ℕ
  h : ℕ

/-- `AppManifest`, less the icon and the component. -/
structure AppManifest where
  id : String
  title : String
  defaultSize : AppSize
  minSize : AppSize
  singleInstance : Bool
  adminOnly : Bool

/-- `appRegistry`. -/
def appRegistry : List AppManifest :=
  [⟨"dashboard", "Dashboard", ⟨720, 460⟩, ⟨420, 320⟩, true, false⟩,
    ⟨"control-panel", "Control Panel", ⟨760, 520⟩, ⟨560, 400⟩, true, false⟩,
    ⟨"file-station", "File Station", ⟨920, 600⟩, ⟨640, 420⟩, true, false⟩,
    ⟨"storage-manager", "Storage Manager", ⟨860, 560⟩, ⟨600, 400⟩, true, true⟩]

/-- `getApp`. -/
def getApp (id : String) : Option AppManifest :=
  appRegistry.find? fun app => app.id = id

/-! ### The shell -/

/-- `DragOrigin`. -/
structure DragOrigin (N : Type) where
  pointerX : N
  pointerY : N
  x : N
  y : N

/-- `ResizeOrigin`. -/
structure ResizeOrigin (N : Type) where
  pointerX : N
  pointerY : N
  w : N
  h : N

/-- The store, what the browser keeps for each application, and the drags and resizes that have begun, by
the ids of their windows. -/
structure DesktopShell (N : Type) where
  store : WmStore N
  saved : String → Option (WindowGeometry N)
  drags : String → Option (DragOrigin N)
  resizes : String → Option (ResizeOrigin N)

/-- What a user does, at a time where the time matters.  A pointer has a button and a place; the browser
may have no room to keep what it is given. -/
inductive ShellEvent (N : Type) where
  | mount (now : ℕ)
  | unmount
  | reload
  | launch (appId : String) (admin : Bool) (now : ℕ)
  | taskbarEntry (id : String)
  | pointerDown (id : String)
  | titleDown (id : String) (button : ℕ) (pointerX pointerY : N)
  | titleMove (id : String) (pointerX pointerY : N) (room : Bool)
  | titleUp (id : String)
  | resizeDown (id : String) (button : ℕ) (pointerX pointerY : N)
  | resizeMove (id : String) (pointerX pointerY : N) (room : Bool)
  | resizeUp (id : String)
  | toggleMaximize (id : String)
  | minimize (id : String)
  | close (id : String)

namespace DesktopShell

variable {N : Type}

/-- The window of an id and its application, if `Desktop` renders it. -/
def rendered (s : DesktopShell N) (id : String) : Option (WindowInstance N × AppManifest) :=
  (s.store.windows.find? id).bind fun row =>
    (row.2.appId.bind getApp).map fun manifest => (row.2, manifest)

/-- The window of an id and its application, if there is anything of it to click on. -/
def shown (s : DesktopShell N) (id : String) : Option (WindowInstance N × AppManifest) :=
  (s.rendered id).filter fun win => win.1.state ≠ some .minimized

/-- `saveGeometry`, where there is room. -/
def saveGeometry (s : DesktopShell N) (room : Bool) (appId : Option String)
    (geometry : Option (WindowGeometry N)) : DesktopShell N :=
  match appId with
  | none => s
  | some appId => if room then { s with saved := Function.update s.saved appId geometry } else s

/-- A change of where a window is, with what is kept of it. -/
def place (s : DesktopShell N) (room : Bool) (id : String) (store : WmStore N) : DesktopShell N :=
  match s.store.window? id with
  | none => s
  | some win =>
      if win.state = some .maximized then s
      else
        { s with store }.saveGeometry room win.appId ((store.window? id).bind WindowInstance.geometry)

variable [CommRing N] [LinearOrder N]

/-- Open a window of an application. -/
def openApp (s : DesktopShell N) (manifest : AppManifest) (now : ℕ) : DesktopShell N :=
  { s with
    store := (s.store.openWindow manifest.id
      ⟨manifest.title,
        ⟨some 96, some 72, some manifest.defaultSize.w, some manifest.defaultSize.h⟩,
        manifest.singleInstance⟩
      (s.saved manifest.id) now).2 }

/-- `handleTitlePointerDown`, after the focus. -/
def beginDrag (s : DesktopShell N) (win : WindowInstance N) (id : String) (button : ℕ)
    (pointerX pointerY : N) : DesktopShell N :=
  if win.state = some .maximized ∨ button ≠ 0 then s
  else
    { s with
      drags := Function.update s.drags id do
        let geometry ← win.geometry
        let x ← geometry.x
        let y ← geometry.y
        some ⟨pointerX, pointerY, x, y⟩ }

/-- `handleResizePointerDown`, after the focus. -/
def beginResize (s : DesktopShell N) (win : WindowInstance N) (id : String) (button : ℕ)
    (pointerX pointerY : N) : DesktopShell N :=
  if button ≠ 0 then s
  else
    { s with
      resizes := Function.update s.resizes id do
        let geometry ← win.geometry
        let w ← geometry.w
        let h ← geometry.h
        some ⟨pointerX, pointerY, w, h⟩ }

/-- `handleTitlePointerMove`. -/
def drag (s : DesktopShell N) (id : String) (pointerX pointerY : N) (room : Bool) : DesktopShell N :=
  match s.drags id with
  | none => s
  | some origin =>
      s.place room id (s.store.move id (max 0 (origin.x + (pointerX - origin.pointerX)))
        (max 0 (origin.y + (pointerY - origin.pointerY))))

/-- `handleResizePointerMove`. -/
def resize (s : DesktopShell N) (manifest : AppManifest) (id : String) (pointerX pointerY : N)
    (room : Bool) : DesktopShell N :=
  match s.resizes id with
  | none => s
  | some origin =>
      s.place room id (s.store.resize id
        (max manifest.minSize.w (origin.w + (pointerX - origin.pointerX)))
        (max manifest.minSize.h (origin.h + (pointerY - origin.pointerY))))

/-- What comes of an event, if it can be. -/
def step (s : DesktopShell N) : ShellEvent N → Option (DesktopShell N)
  | .mount now =>
      if s.store.windows.rows.isEmpty then
        some (((getApp "dashboard").map fun manifest => s.openApp manifest now).getD s)
      else some s
  | .unmount => some { s with drags := fun _ => none, resizes := fun _ => none }
  | .reload => some ⟨.empty, s.saved, fun _ => none, fun _ => none⟩
  | .launch appId admin now =>
      ((appRegistry.filter fun app => !app.adminOnly || admin).find? fun app => app.id = appId).map
        fun manifest => s.openApp manifest now
  | .taskbarEntry id =>
      (s.rendered id).map fun win =>
        if win.1.state ≠ some .minimized ∧ win.1.z = some s.store.topZ then
          { s with store := s.store.minimize id }
        else { s with store := s.store.focus id }
  | .pointerDown id => (s.shown id).map fun _ => { s with store := s.store.focus id }
  | .titleDown id button pointerX pointerY =>
      (s.shown id).map fun win =>
        { s with store := s.store.focus id }.beginDrag win.1 id button pointerX pointerY
  | .titleMove id pointerX pointerY room =>
      (s.shown id).map fun _ => s.drag id pointerX pointerY room
  | .titleUp id => (s.shown id).map fun _ => { s with drags := Function.update s.drags id none }
  | .resizeDown id button pointerX pointerY =>
      ((s.shown id).filter fun win => win.1.state ≠ some .maximized).map fun win =>
        { s with store := s.store.focus id }.beginResize win.1 id button pointerX pointerY
  | .resizeMove id pointerX pointerY room =>
      ((s.shown id).filter fun win => win.1.state ≠ some .maximized).map fun win =>
        s.resize win.2 id pointerX pointerY room
  | .resizeUp id =>
      ((s.shown id).filter fun win => win.1.state ≠ some .maximized).map fun _ =>
        { s with resizes := Function.update s.resizes id none }
  | .toggleMaximize id => (s.shown id).map fun _ => { s with store := s.store.toggleMaximize id }
  | .minimize id => (s.shown id).map fun _ => { s with store := s.store.minimize id }
  | .close id =>
      (s.shown id).map fun _ =>
        { s with
          store := s.store.close id
          drags := Function.update s.drags id none
          resizes := Function.update s.resizes id none }

/-- The machine of the shell. -/
def machine : Machine (DesktopShell N) (ShellEvent N) :=
  ⟨step⟩

/-- The empty desktop of a browser that keeps nothing. -/
def start : DesktopShell N :=
  ⟨.empty, fun _ => none, fun _ => none, fun _ => none⟩

end DesktopShell

/-! ### What can be reached -/

/-- A geometry begins on the desktop and is no smaller than a size. -/
def WindowGeometry.Fits {N : Type} [NatCast N] [Zero N] [LE N] (geometry : WindowGeometry N)
    (size : AppSize) : Prop :=
  ∃ x y w h : N, geometry = ⟨some x, some y, some w, some h⟩ ∧ 0 ≤ x ∧ 0 ≤ y ∧ (size.w : N) ≤ w
    ∧ (size.h : N) ≤ h

/-- A window is under its id, is one of an application, and fits it; so does what it returns to. -/
structure WindowInstance.Placed {N : Type} [NatCast N] [Zero N] [LE N] (win : WindowInstance N)
    (id : String) (manifest : AppManifest) : Prop where
  id_eq : win.id = some id
  appId_eq : win.appId = some manifest.id
  geometry : ∃ geometry, win.geometry = some geometry ∧ geometry.Fits manifest.minSize
  restoreGeometry : ∀ geometry, win.restoreGeometry = some geometry → geometry.Fits manifest.minSize

/-- An application of the registry is got by its id. -/
theorem getApp_eq_some {manifest : AppManifest} (h : manifest ∈ appRegistry) :
  getApp manifest.id = some manifest
  := by
  simp only [appRegistry, List.mem_cons, List.not_mem_nil, or_false] at h
  rcases h with rfl | rfl | rfl | rfl
  all_goals rfl

/-- No application opens smaller than it allows, and each has one window. -/
theorem minSize_le_defaultSize {manifest : AppManifest} (h : manifest ∈ appRegistry) :
  manifest.minSize.w ≤ manifest.defaultSize.w ∧ manifest.minSize.h ≤ manifest.defaultSize.h
    ∧ manifest.singleInstance = true
  := by
  revert manifest
  decide

namespace DesktopShell

variable {N : Type} [CommRing N] [LinearOrder N] {s s' : DesktopShell N}

/-- Every window is placed, no application has two, and what is kept fits. -/
structure Reachable (s : DesktopShell N) : Prop where
  placed : ∀ id win, s.store.windows.find? id = some (id, win) →
    id ∉ inheritedNames ∧ ∃ manifest ∈ appRegistry, win.Placed id manifest
  single : ∀ id id' win win', s.store.windows.find? id = some (id, win) →
    s.store.windows.find? id' = some (id', win') → win.appId = win'.appId → id = id'
  saved : ∀ manifest ∈ appRegistry, ∀ geometry, s.saved manifest.id = some geometry →
    geometry.Fits manifest.minSize

/-- The windows alone are reachable. -/
theorem Reachable.of_eq (h : s.Reachable) (hstore : s'.store = s.store) (hsaved : s'.saved = s.saved) :
  s'.Reachable
  := by
  constructor
  · rw [hstore]
    apply h.placed
  · rw [hstore]
    apply h.single
  · rw [hsaved]
    apply h.saved

omit [CommRing N] [LinearOrder N] in
/-- What is found after a window was put. -/
theorem find?_put (store : WmStore N) (id key : String) (win : WindowInstance N) :
  (store.put id win).windows.find? key = if id = key then some (id, win) else store.windows.find? key
  := Table.find?_put _ _ _

omit [CommRing N] [LinearOrder N] in
/-- A window that was put is found. -/
theorem find?_put_self (store : WmStore N) (id : String) (win : WindowInstance N) :
  (store.put id win).windows.find? id = some (id, win)
  := (find?_put _ _ _ _).trans (if_pos rfl)

/-- A window that stays placed, and stays of its application, leaves all reachable. -/
theorem Reachable.put (h : s.Reachable) {id : String} {win win' : WindowInstance N} {t : ℕ}
    (hfind : s.store.windows.find? id = some (id, win)) (happ : win'.appId = win.appId)
    (hplaced : ∀ manifest ∈ appRegistry, win.Placed id manifest → win'.Placed id manifest) :
  ({ s with store := WmStore.put ⟨s.store.windows, t, s.store.nextId⟩ id win' } : DesktopShell N).Reachable
  := by
  have hback : ∀ key w,
      (WmStore.put ⟨s.store.windows, t, s.store.nextId⟩ id win').windows.find? key = some (key, w) →
      ∃ w₀, s.store.windows.find? key = some (key, w₀) ∧ w.appId = w₀.appId := by
    intro key w hkey
    rw [find?_put] at hkey
    split at hkey
    · rename_i heq
      cases hkey
      exact ⟨win, hfind, happ⟩
    · exact ⟨w, hkey, rfl⟩
  constructor
  · intro key w hkey
    rw [find?_put] at hkey
    split at hkey
    · rename_i heq
      cases hkey
      obtain ⟨hown, manifest, hmanifest, hwin⟩ := h.placed _ _ hfind
      exact ⟨hown, manifest, hmanifest, hplaced manifest hmanifest hwin⟩
    · apply h.placed key w hkey
  · intro key key' w w' hkey hkey' heq
    obtain ⟨w₀, hw₀, happ₀⟩ := hback key w hkey
    obtain ⟨w₁, hw₁, happ₁⟩ := hback key' w' hkey'
    apply h.single key key' w₀ w₁ hw₀ hw₁
    rw [← happ₀, ← happ₁, heq]
  · apply h.saved

/-- Focusing a window leaves all reachable. -/
theorem Reachable.focus (h : s.Reachable) {id : String} (hid : id ∉ inheritedNames) :
  ({ s with store := s.store.focus id } : DesktopShell N).Reachable
  := by
  rw [WmStore.focus.eq_def]
  split
  · apply h
  · rename_i win hwin
    refine h.put (WmStore.window?_of_notMem hid hwin) ?_ ?_
    · rfl
    intro manifest _ hplaced
    exact ⟨hplaced.id_eq, hplaced.appId_eq, hplaced.geometry, hplaced.restoreGeometry⟩

/-- Minimizing a window leaves all reachable. -/
theorem Reachable.minimize (h : s.Reachable) {id : String} (hid : id ∉ inheritedNames) :
  ({ s with store := s.store.minimize id } : DesktopShell N).Reachable
  := by
  rw [WmStore.minimize.eq_def]
  split
  · apply h
  · rename_i win hwin
    refine h.put (t := s.store.topZ) (WmStore.window?_of_notMem hid hwin) ?_ ?_
    · rfl
    intro manifest _ hplaced
    exact ⟨hplaced.id_eq, hplaced.appId_eq, hplaced.geometry, hplaced.restoreGeometry⟩

/-- Maximizing a window, or restoring it, leaves all reachable. -/
theorem Reachable.toggleMaximize (h : s.Reachable) {id : String} (hid : id ∉ inheritedNames) :
  ({ s with store := s.store.toggleMaximize id } : DesktopShell N).Reachable
  := by
  rw [WmStore.toggleMaximize.eq_def]
  split
  · apply h
  · rename_i win hwin
    have hfind := WmStore.window?_of_notMem hid hwin
    split
    · refine h.put (t := s.store.topZ) hfind ?_ ?_
      · rfl
      intro manifest _ hplaced
      refine ⟨hplaced.id_eq, hplaced.appId_eq, ?_, by rintro geometry ⟨⟩⟩
      cases hrestore : win.restoreGeometry with
      | none => apply hplaced.geometry
      | some geometry => exact ⟨geometry, rfl, hplaced.restoreGeometry geometry hrestore⟩
    · refine h.put (t := s.store.topZ) hfind ?_ ?_
      · rfl
      intro manifest _ hplaced
      refine ⟨hplaced.id_eq, hplaced.appId_eq, hplaced.geometry, ?_⟩
      intro geometry hgeometry
      obtain ⟨geometry', hgeometry', hfits⟩ := hplaced.geometry
      rw [hgeometry'] at hgeometry
      cases hgeometry
      apply hfits

/-- Closing a window leaves all reachable. -/
theorem Reachable.close (h : s.Reachable) (id : String) :
  ({ s with store := s.store.close id } : DesktopShell N).Reachable
  := by
  rw [WmStore.close.eq_def]
  split
  · have hback : ∀ key row, (s.store.windows.erase id).find? key = some row →
        s.store.windows.find? key = some row := by
      intro key row hrow
      rw [Table.find?_erase] at hrow
      split at hrow
      · cases hrow
      · apply hrow
    constructor
    · intro key win hwin
      apply h.placed key win (hback key _ hwin)
    · intro key key' win win' hwin hwin'
      apply h.single key key' win win' (hback key _ hwin) (hback key' _ hwin')
    · apply h.saved
  · apply h

/-- A window is of one application. -/
theorem placed_unique {id : String} {win : WindowInstance N} {manifest manifest' : AppManifest}
    (hmanifest : manifest ∈ appRegistry) (hmanifest' : manifest' ∈ appRegistry)
    (hplaced : win.Placed id manifest) (hplaced' : win.Placed id manifest') :
  manifest' = manifest
  := by
  have hid : manifest'.id = manifest.id := by
    rw [← Option.some_inj, ← hplaced.appId_eq, ← hplaced'.appId_eq]
  rw [← Option.some_inj, ← getApp_eq_some hmanifest, ← getApp_eq_some hmanifest', hid]

/-- A window that is put somewhere that fits it leaves all reachable, and so does what is kept of it. -/
theorem Reachable.place (h : s.Reachable) {id : String} {win : WindowInstance N} {manifest : AppManifest}
    (hfind : s.store.windows.find? id = some (id, win)) (hmanifest : manifest ∈ appRegistry)
    (hplaced : win.Placed id manifest) {geometry : WindowGeometry N} (hfits : geometry.Fits manifest.minSize)
    {store : WmStore N} (room : Bool)
    (hstore : win.state ≠ some .maximized →
      store = s.store.put id { win with geometry := some geometry }) :
  (s.place room id store).Reachable
  := by
  have hwindow : s.store.window? id = some win := by
    rw [WmStore.window?, hfind]
  rw [DesktopShell.place, hwindow]
  dsimp only
  split
  · apply h
  · rename_i hstate
    have hnew : ({ s with store } : DesktopShell N).Reachable := by
      rw [hstore hstate]
      refine h.put (t := s.store.topZ) hfind ?_ ?_
      · rfl
      intro manifest' hmanifest' hplaced'
      cases placed_unique hmanifest hmanifest' hplaced hplaced'
      exact ⟨hplaced.id_eq, hplaced.appId_eq, ⟨geometry, rfl, hfits⟩, hplaced.restoreGeometry⟩
    rw [saveGeometry.eq_def, hplaced.appId_eq]
    dsimp only
    split
    · refine ⟨hnew.placed, hnew.single, ?_⟩
      intro manifest' hmanifest' kept hkept
      dsimp only at hkept
      by_cases heq : manifest'.id = manifest.id
      · have hsame : manifest' = manifest := by
          rw [← Option.some_inj, ← getApp_eq_some hmanifest', ← getApp_eq_some hmanifest, heq]
        rw [heq, Function.update_self, hstore hstate, WmStore.window?, find?_put_self] at hkept
        cases hkept
        rw [hsame]
        apply hfits
      · rw [Function.update_of_ne heq] at hkept
        apply h.saved manifest' hmanifest' kept hkept
    · apply hnew

/-- A window that is rendered is found, and is one of its application. -/
theorem Reachable.of_rendered (h : s.Reachable) {id : String} {win : WindowInstance N × AppManifest}
    (hwin : s.rendered id = some win) :
  s.store.windows.find? id = some (id, win.1) ∧ id ∉ inheritedNames ∧ win.2 ∈ appRegistry
    ∧ win.1.Placed id win.2
  := by
  obtain ⟨row, hrow, hmanifest⟩ := Option.bind_eq_some_iff.mp hwin
  obtain ⟨manifest, happ, rfl⟩ := Option.map_eq_some_iff.mp hmanifest
  have hkey := (Table.find?_eq_some_iff.mp hrow).2
  subst hkey
  obtain ⟨hown, manifest', hmanifest', hplaced⟩ := h.placed _ _ hrow
  rw [hplaced.appId_eq, Option.bind_some, getApp_eq_some hmanifest'] at happ
  cases happ
  exact ⟨hrow, hown, hmanifest', hplaced⟩

omit [CommRing N] [LinearOrder N] in
/-- A window that is shown is rendered. -/
theorem rendered_of_shown {id : String} {win : WindowInstance N × AppManifest}
    (hwin : s.shown id = some win) :
  s.rendered id = some win
  := (Option.filter_eq_some_iff.mp hwin).1

/-- A drag leaves all reachable: the window does not go beyond the left and upper edges. -/
theorem Reachable.drag (h : s.Reachable) {id : String} {win : WindowInstance N × AppManifest}
    (hwin : s.rendered id = some win) (pointerX pointerY : N) (room : Bool) :
  (s.drag id pointerX pointerY room).Reachable
  := by
  obtain ⟨hfind, -, hmanifest, hplaced⟩ := h.of_rendered hwin
  have hwindow : s.store.window? id = some win.1 := by
    rw [WmStore.window?, hfind]
  obtain ⟨geometry, hgeometry, x, y, w, height, rfl, -, -, hw, hh⟩ := hplaced.geometry
  rw [DesktopShell.drag.eq_def]
  split
  · apply h
  · rename_i origin horigin
    have hfits : WindowGeometry.Fits
        ⟨some (max 0 (origin.x + (pointerX - origin.pointerX))),
          some (max 0 (origin.y + (pointerY - origin.pointerY))), some w, some height⟩
        win.2.minSize := ⟨_, _, w, height, rfl, le_max_left _ _, le_max_left _ _, hw, hh⟩
    apply h.place hfind hmanifest hplaced hfits room
    intro hstate
    rw [WmStore.move, hwindow]
    dsimp only
    rw [if_neg hstate, hgeometry]
    rfl

/-- A resize leaves all reachable: the window does not get smaller than its application allows. -/
theorem Reachable.resize (h : s.Reachable) {id : String} {win : WindowInstance N × AppManifest}
    (hwin : s.rendered id = some win) (pointerX pointerY : N) (room : Bool) :
  (s.resize win.2 id pointerX pointerY room).Reachable
  := by
  obtain ⟨hfind, -, hmanifest, hplaced⟩ := h.of_rendered hwin
  have hwindow : s.store.window? id = some win.1 := by
    rw [WmStore.window?, hfind]
  obtain ⟨geometry, hgeometry, x, y, w, height, rfl, hx, hy, -, -⟩ := hplaced.geometry
  rw [DesktopShell.resize.eq_def]
  split
  · apply h
  · rename_i origin horigin
    have hfits : WindowGeometry.Fits
        ⟨some x, some y, some (max (win.2.minSize.w : N) (origin.w + (pointerX - origin.pointerX))),
          some (max (win.2.minSize.h : N) (origin.h + (pointerY - origin.pointerY)))⟩
        win.2.minSize := ⟨x, y, _, _, rfl, hx, hy, le_max_left _ _, le_max_left _ _⟩
    apply h.place hfind hmanifest hplaced hfits room
    intro hstate
    rw [WmStore.resize, hwindow]
    dsimp only
    rw [if_neg hstate, hgeometry]
    rfl

/-! ### A drag -/

/-- A window that can be moved is being dragged: it has its size, and the drag knows where it began. -/
structure Dragging (id : String) (origin : DragOrigin N) (w h : N) (s : DesktopShell N) : Prop where
  origin_eq : s.drags id = some origin
  window : ∃ win x y, s.store.windows.find? id = some (id, win) ∧ win.state ≠ some .maximized
    ∧ win.geometry = some ⟨some x, some y, some w, some h⟩

/-- A move of the pointer puts the window that is dragged where the pointer has got to. -/
theorem Dragging.titleMove {id : String} {origin : DragOrigin N} {w h : N} (hs : Dragging id origin w h s)
    {pointerX pointerY : N} {room : Bool} (hstep : s.step (.titleMove id pointerX pointerY room) = some s') :
  Dragging id origin w h s'
    ∧ ∃ win, s'.store.windows.find? id = some (id, win)
      ∧ win.geometry = some ⟨some (max 0 (origin.x + (pointerX - origin.pointerX))),
          some (max 0 (origin.y + (pointerY - origin.pointerY))), some w, some h⟩
  := by
  obtain ⟨win, x, y, hfind, hstate, hgeometry⟩ := hs.window
  obtain ⟨shown, -, rfl⟩ := Option.map_eq_some_iff.mp hstep
  have hwindow : s.store.window? id = some win := by
    rw [WmStore.window?, hfind]
  have hstore : s.store.move id (max 0 (origin.x + (pointerX - origin.pointerX)))
      (max 0 (origin.y + (pointerY - origin.pointerY)))
        = s.store.put id { win with
            geometry := some ⟨some (max 0 (origin.x + (pointerX - origin.pointerX))),
              some (max 0 (origin.y + (pointerY - origin.pointerY))), some w, some h⟩ } := by
    rw [WmStore.move, hwindow]
    dsimp only
    rw [if_neg hstate, hgeometry]
    rfl
  rw [drag, hs.origin_eq]
  dsimp only
  rw [place, hwindow]
  dsimp only
  rw [if_neg hstate, hstore]
  have hsaved (t : DesktopShell N) (appId : Option String) (geometry : Option (WindowGeometry N)) :
      (t.saveGeometry room appId geometry).store = t.store
        ∧ (t.saveGeometry room appId geometry).drags = t.drags := by
    rw [saveGeometry.eq_def]
    split
    · exact ⟨rfl, rfl⟩
    · split
      · exact ⟨rfl, rfl⟩
      · exact ⟨rfl, rfl⟩
  refine ⟨⟨?_, ?_⟩, ?_⟩
  · rw [(hsaved _ _ _).2]
    apply hs.origin_eq
  · rw [(hsaved _ _ _).1]
    exact ⟨_, _, _, find?_put_self _ _ _, hstate, rfl⟩
  · rw [(hsaved _ _ _).1]
    exact ⟨_, find?_put_self _ _ _, rfl⟩

/-- However the pointer got there, the window that is dragged is where the pointer is at last. -/
theorem dragged_of_run {id : String} {origin : DragOrigin N} {w h : N} (hs : Dragging id origin w h s)
    {moves : List (N × N × Bool)} {pointerX pointerY : N} {room : Bool}
    (hrun : machine.run s (moves.map (fun m => .titleMove id m.1 m.2.1 m.2.2)
      ++ [.titleMove id pointerX pointerY room]) = some s') :
  ∃ win, s'.store.windows.find? id = some (id, win)
    ∧ win.geometry = some ⟨some (max 0 (origin.x + (pointerX - origin.pointerX))),
        some (max 0 (origin.y + (pointerY - origin.pointerY))), some w, some h⟩
  := by
  induction moves generalizing s with
  | nil =>
      obtain ⟨t, hstep, hdone⟩ := (Machine.run_cons_eq_some _).mp hrun
      cases hdone
      exact (hs.titleMove hstep).2
  | cons m moves ih =>
      obtain ⟨t, hstep, hrest⟩ := (Machine.run_cons_eq_some _).mp hrun
      apply ih (hs.titleMove hstep).1 hrest

/-! ### Whatever a user does -/

variable [IsStrictOrderedRing N]

/-- A new window opens where the last of its application was left, or in the cascade. -/
theorem fits_opened (h : s.Reachable) {manifest : AppManifest} (hmanifest : manifest ∈ appRegistry)
    (offset : ℕ) :
  ((s.saved manifest.id).getD
    ⟨some (96 + (offset : N)), some (72 + (offset : N)), some manifest.defaultSize.w,
      some manifest.defaultSize.h⟩).Fits manifest.minSize
  := by
  cases hsaved : s.saved manifest.id with
  | some geometry => apply h.saved manifest hmanifest geometry hsaved
  | none =>
      obtain ⟨hw, hh, -⟩ := minSize_le_defaultSize hmanifest
      refine ⟨_, _, _, _, rfl, ?_, ?_, Nat.mono_cast hw, Nat.mono_cast hh⟩
      · apply add_nonneg (Nat.ofNat_nonneg 96) (Nat.cast_nonneg offset)
      · apply add_nonneg (Nat.ofNat_nonneg 72) (Nat.cast_nonneg offset)

/-- Opening an application of the registry leaves all reachable. -/
theorem Reachable.openApp (h : s.Reachable) {manifest : AppManifest} (hmanifest : manifest ∈ appRegistry)
    (now : ℕ) :
  (s.openApp manifest now).Reachable
  := by
  obtain ⟨-, -, hsingle⟩ := minSize_le_defaultSize hmanifest
  rw [DesktopShell.openApp, WmStore.openWindow.eq_def]
  dsimp only
  rw [if_pos hsingle]
  split
  · rename_i existing hexisting
    have hfind := WmStore.find?_of_mem (List.mem_of_find?_eq_some hexisting)
    obtain ⟨hown, manifest', -, hplaced⟩ := h.placed existing.1 existing.2 hfind
    rw [hplaced.id_eq, Option.getD_some]
    apply h.focus hown
  · rename_i hnone
    have hother : ∀ id win, s.store.windows.find? id = some (id, win) →
        win.appId ≠ some manifest.id := by
      intro id win hwin
      simpa using List.find?_eq_none.mp hnone _ (Table.find?_eq_some_iff.mp hwin).1
    rw [WmStore.openNew]
    constructor
    · intro id win hwin
      rw [find?_put] at hwin
      split at hwin
      · rename_i hid
        cases hwin
        refine ⟨makeWindowId_notMem _ _, manifest, hmanifest, rfl, rfl, ⟨_, rfl, ?_⟩, ?_⟩
        · apply fits_opened h hmanifest
        · rintro geometry ⟨⟩
      · apply h.placed id win hwin
    · intro id id' win win' hwin hwin' heq
      rw [find?_put] at hwin hwin'
      split at hwin
      · rename_i hid
        cases hwin
        split at hwin'
        · rename_i hid'
          apply hid'
        · exact absurd heq.symm (hother id' win' hwin')
      · split at hwin'
        · cases hwin'
          exact absurd heq (hother id win hwin)
        · apply h.single id id' win win' hwin hwin' heq
    · apply h.saved

/-- The step lemma: whatever a user does leaves all reachable. -/
theorem Reachable.step (h : s.Reachable) {e : ShellEvent N} (hstep : s.step e = some s') :
  s'.Reachable
  := by
  cases e with
  | mount now =>
      rw [DesktopShell.step] at hstep
      split at hstep
      · cases hstep
        have hdashboard : (⟨"dashboard", "Dashboard", ⟨720, 460⟩, ⟨420, 320⟩, true, false⟩ : AppManifest)
            ∈ appRegistry := List.mem_cons_self
        rw [getApp_eq_some hdashboard]
        apply h.openApp hdashboard
      · cases hstep
        apply h
  | unmount =>
      cases hstep
      exact h.of_eq rfl rfl
  | reload =>
      cases hstep
      constructor
      · rintro id win ⟨⟩
      · rintro id id' win win' ⟨⟩
      · apply h.saved
  | launch appId admin now =>
      obtain ⟨manifest, hmanifest, rfl⟩ := Option.map_eq_some_iff.mp hstep
      apply h.openApp
      apply (List.mem_filter.mp (List.mem_of_find?_eq_some hmanifest)).1
  | taskbarEntry id =>
      obtain ⟨win, hwin, rfl⟩ := Option.map_eq_some_iff.mp hstep
      obtain ⟨-, hown, -, -⟩ := h.of_rendered hwin
      split
      · apply h.minimize hown
      · apply h.focus hown
  | pointerDown id =>
      obtain ⟨win, hwin, rfl⟩ := Option.map_eq_some_iff.mp hstep
      apply h.focus (h.of_rendered (rendered_of_shown hwin)).2.1
  | titleDown id button pointerX pointerY =>
      obtain ⟨win, hwin, rfl⟩ := Option.map_eq_some_iff.mp hstep
      have hfocus := h.focus (h.of_rendered (rendered_of_shown hwin)).2.1
      rw [beginDrag]
      split
      · apply hfocus
      · exact hfocus.of_eq rfl rfl
  | titleMove id pointerX pointerY room =>
      obtain ⟨win, hwin, rfl⟩ := Option.map_eq_some_iff.mp hstep
      apply h.drag (rendered_of_shown hwin)
  | titleUp id =>
      obtain ⟨win, -, rfl⟩ := Option.map_eq_some_iff.mp hstep
      exact h.of_eq rfl rfl
  | resizeDown id button pointerX pointerY =>
      obtain ⟨win, hwin, rfl⟩ := Option.map_eq_some_iff.mp hstep
      have hrendered := rendered_of_shown (Option.filter_eq_some_iff.mp hwin).1
      have hfocus := h.focus (h.of_rendered hrendered).2.1
      rw [beginResize]
      split
      · apply hfocus
      · exact hfocus.of_eq rfl rfl
  | resizeMove id pointerX pointerY room =>
      obtain ⟨win, hwin, rfl⟩ := Option.map_eq_some_iff.mp hstep
      apply h.resize (rendered_of_shown (Option.filter_eq_some_iff.mp hwin).1)
  | resizeUp id =>
      obtain ⟨win, -, rfl⟩ := Option.map_eq_some_iff.mp hstep
      exact h.of_eq rfl rfl
  | toggleMaximize id =>
      obtain ⟨win, hwin, rfl⟩ := Option.map_eq_some_iff.mp hstep
      apply h.toggleMaximize (h.of_rendered (rendered_of_shown hwin)).2.1
  | minimize id =>
      obtain ⟨win, hwin, rfl⟩ := Option.map_eq_some_iff.mp hstep
      apply h.minimize (h.of_rendered (rendered_of_shown hwin)).2.1
  | close id =>
      obtain ⟨win, -, rfl⟩ := Option.map_eq_some_iff.mp hstep
      exact (h.close id).of_eq rfl rfl

/-- In every run from the empty desktop of a browser that keeps nothing, no application has two windows,
and every window can be reached; so can what it returns to, and what is kept for the next one. -/
theorem reachable_of_run {events : List (ShellEvent N)} (hrun : machine.run start events = some s) :
  s.Reachable
  := by
  apply Machine.run_invariant_of_step (fun _ _ _ h hstep => Reachable.step h hstep) _ hrun
  constructor
  · rintro id win ⟨⟩
  · rintro id id' win win' ⟨⟩
  · rintro manifest - geometry ⟨⟩

/-- The Dashboard opens, is dragged beyond the corner and made too small, and the page is loaded anew. -/
def cornered : List (ShellEvent ℤ) :=
  [.mount 0, .titleDown "win-1-0" 0 200 80, .titleMove "win-1-0" (-40) 10 true, .titleUp "win-1-0",
    .resizeDown "win-1-0" 0 700 500, .resizeMove "win-1-0" 10 20 true, .reload, .mount 1]

/-- The Dashboard can be reached where it was left. -/
theorem reachable_cornered :
  ∃ s, machine.run start cornered = some s ∧ s.Reachable
  := by
  have hrun : (machine.run start cornered).isSome = true := by decide
  obtain ⟨s, hs⟩ := Option.isSome_iff_exists.mp hrun
  exact ⟨s, hs, reachable_of_run hs⟩

example : ((machine.run start cornered).map fun s =>
    s.store.windows.rows.map fun row => row.2.geometry.map fun g => [g.x, g.y, g.w, g.h])
      = some [some [some 0, some 2, some 420, some 320]]
  := by decide

end DesktopShell
