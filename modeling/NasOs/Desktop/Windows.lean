import Mathlib.Data.List.Induction
import Mathlib.Data.Nat.Digits.Defs
import NasOs.Library.Machine
import NasOs.Library.Table
import NasOs.Library.Text

/-!
# The windows of the desktop

The store of the windows: a record of windows by their ids, and a counter that gives the window which
is raised a place above all others.

A record of the language has properties that were never put there, such as `constructor`, and a
window is looked up among these too.  An action on such a name makes a window without an id, and
maybe without a place; hence the fields of a window may be undefined.  A counter is a floating-point
number, and stays at `2 ^ 53` once it is there.

As long as no action is on such a name, and the counters are below that, the windows keep their order.
As long as no maximized window is minimized, a window knows where it was exactly while it is maximized.

Coordinates are of any type that has the operations; what the browser has stored for an application is
given with the action that opens a window, and what an action stores there is left out.
-/

/-- `WindowState`. -/
inductive WindowState where
  | normal
  | minimized
  | maximized
  deriving DecidableEq

/-- `WindowGeometry`, with the fields that are defined. -/
structure WindowGeometry (N : Type) where
  x : Option N
  y : Option N
  w : Option N
  h : Option N

/-- `WindowInstance`, with the fields that are defined; a `restoreGeometry` of `null` is none. -/
structure WindowInstance (N : Type) where
  id : Option String
  appId : Option String
  title : Option String
  geometry : Option (WindowGeometry N)
  restoreGeometry : Option (WindowGeometry N)
  z : Option ℕ
  state : Option WindowState

/-- `OpenWindowOptions`. -/
structure OpenWindowOptions (N : Type) where
  title : String
  geometry : WindowGeometry N
  singleInstance : Bool

/-- The actions of the store.  A window is opened with what the browser stored for its application, and
at a time. -/
inductive WmAction (N : Type) where
  | open (appId : String) (options : OpenWindowOptions N) (saved : Option (WindowGeometry N)) (now : ℕ)
  | close (id : String)
  | focus (id : String)
  | move (id : String) (x y : N)
  | resize (id : String) (w h : N)
  | minimize (id : String)
  | toggleMaximize (id : String)

/-- The properties that a record has without being given them. -/
def inheritedNames : List String :=
  ["constructor", "__defineGetter__", "__defineSetter__", "hasOwnProperty", "__lookupGetter__",
    "__lookupSetter__", "isPrototypeOf", "propertyIsEnumerable", "toString", "valueOf", "__proto__",
    "toLocaleString"]

/-- The state of the store, and the number of ids that were made. -/
structure WmStore (N : Type) where
  windows : Table (Prod.fst : String × WindowInstance N → String)
  topZ : ℕ
  nextId : ℕ

/-- One more than a counter, as a floating-point number. -/
def increment (n : ℕ) : ℕ :=
  if n < 2 ^ 53 then n + 1 else n

/-- `toString(36)`. -/
def base36 (n : ℕ) : List Char :=
  if n = 0 then ['0']
  else (Nat.digits 36 n).reverse.map fun d => Char.ofNat (if d < 10 then d + 48 else d + 87)

/-- `makeWindowId`, for the number of the id and the time. -/
def makeWindowId (number now : ℕ) : String :=
  "win-" ++ toString number ++ "-" ++ String.ofList (base36 now)

/-- `CASCADE_OFFSET`. -/
def cascadeOffset : ℕ := 28

/-- `CASCADE_CYCLE`. -/
def cascadeCycle : ℕ := 6

namespace WmStore

variable {N : Type}

/-- The empty desktop. -/
def empty : WmStore N :=
  ⟨.empty, 0, 0⟩

/-- `state.windows[id]`, unless it is undefined: a property that is inherited has no field of a window. -/
def window? (s : WmStore N) (id : String) : Option (WindowInstance N) :=
  match s.windows.find? id with
  | some row => some row.2
  | none => if id ∈ inheritedNames then some ⟨none, none, none, none, none, none, none⟩ else none

/-- `{ ...state.windows, [id]: win }`. -/
def put (s : WmStore N) (id : String) (win : WindowInstance N) : WmStore N :=
  { s with windows := s.windows.put (id, win) }

/-- `focus`. -/
def focus (s : WmStore N) (id : String) : WmStore N :=
  match s.window? id with
  | none => s
  | some win =>
      { s with topZ := increment s.topZ }.put id
        { win with
          z := some (increment s.topZ)
          state := if win.state = some WindowState.minimized then some .normal else win.state }

/-- The rest of `open`, once no window is there that is focused instead. -/
def openNew [Add N] [NatCast N] (s : WmStore N) (appId : String) (options : OpenWindowOptions N)
    (saved : Option (WindowGeometry N)) (now : ℕ) : String × WmStore N :=
  let id := makeWindowId (increment s.nextId) now
  let offset : ℕ := s.windows.rows.length % cascadeCycle * cascadeOffset
  let geometry := saved.getD
    { options.geometry with
      x := options.geometry.x.map (· + (offset : N))
      y := options.geometry.y.map (· + (offset : N)) }
  let z := increment s.topZ
  (id, { s with topZ := z, nextId := increment s.nextId }.put id
    ⟨some id, some appId, some options.title, some geometry, none, some z, some .normal⟩)

/-- `open`, with the id that it returns. -/
def openWindow [Add N] [NatCast N] (s : WmStore N) (appId : String) (options : OpenWindowOptions N)
    (saved : Option (WindowGeometry N)) (now : ℕ) : String × WmStore N :=
  if options.singleInstance then
    match s.windows.rows.find? fun row => row.2.appId = some appId with
    | some existing =>
        (existing.2.id.getD "undefined", s.focus (existing.2.id.getD "undefined"))
    | none => s.openNew appId options saved now
  else s.openNew appId options saved now

/-- `close`. -/
def close (s : WmStore N) (id : String) : WmStore N :=
  if (s.window? id).isSome then { s with windows := s.windows.erase id } else s

/-- `move`. -/
def move (s : WmStore N) (id : String) (x y : N) : WmStore N :=
  match s.window? id with
  | none => s
  | some win =>
      if win.state = some .maximized then s
      else
        s.put id { win with
          geometry := some
            ⟨some x, some y, win.geometry.bind (·.w), win.geometry.bind (·.h)⟩ }

/-- `resize`. -/
def resize (s : WmStore N) (id : String) (w h : N) : WmStore N :=
  match s.window? id with
  | none => s
  | some win =>
      if win.state = some .maximized then s
      else
        s.put id { win with
          geometry := some
            ⟨win.geometry.bind (·.x), win.geometry.bind (·.y), some w, some h⟩ }

/-- `minimize`. -/
def minimize (s : WmStore N) (id : String) : WmStore N :=
  match s.window? id with
  | none => s
  | some win => s.put id { win with state := some .minimized }

/-- `toggleMaximize`. -/
def toggleMaximize (s : WmStore N) (id : String) : WmStore N :=
  match s.window? id with
  | none => s
  | some win =>
      if win.state = some .maximized then
        s.put id { win with
          state := some .normal
          geometry := win.restoreGeometry.or win.geometry
          restoreGeometry := none }
      else s.put id { win with state := some .maximized, restoreGeometry := win.geometry }

/-- The state after an action. -/
def act [Add N] [NatCast N] (s : WmStore N) : WmAction N → WmStore N
  | .open appId options saved now => (s.openWindow appId options saved now).2
  | .close id => s.close id
  | .focus id => s.focus id
  | .move id x y => s.move id x y
  | .resize id w h => s.resize id w h
  | .minimize id => s.minimize id
  | .toggleMaximize id => s.toggleMaximize id

/-- The id that an action is on: the one it returns if it opens a window. -/
def target [Add N] [NatCast N] (s : WmStore N) : WmAction N → String
  | .open appId options saved now => (s.openWindow appId options saved now).1
  | .close id => id
  | .focus id => id
  | .move id _ _ => id
  | .resize id _ _ => id
  | .minimize id => id
  | .toggleMaximize id => id

/-- The machine of the store: every action has a step. -/
def machine [Add N] [NatCast N] : Machine (WmStore N) (WmAction N) where
  step s a := some (s.act a)

end WmStore

/-! ### What the store keeps -/

namespace WmAction

variable {N : Type}

/-- The id of a window that the action may change. -/
def changed : WmAction N → Option String
  | .open _ _ _ _ => none
  | .close _ => none
  | .focus id => some id
  | .move id _ _ => some id
  | .resize id _ _ => some id
  | .minimize id => some id
  | .toggleMaximize id => some id

/-- The action changes no property that a record inherits. -/
def NamesOwn (a : WmAction N) : Prop :=
  ∀ id, a.changed = some id → id ∉ inheritedNames

end WmAction

namespace WmStore

variable {N : Type}

/-- The action is on no inherited property, and the counters can still count. -/
def Regular (s : WmStore N) (a : WmAction N) : Prop :=
  a.NamesOwn ∧ s.topZ < 2 ^ 53 ∧ s.nextId < 2 ^ 53

/-- The windows are told apart by their ids and by their places, which are between 1 and the last that was
given. -/
structure Ordered (s : WmStore N) : Prop where
  id_eq : ∀ row ∈ s.windows.rows, row.2.id = some row.1
  z_injective : ∀ row ∈ s.windows.rows, ∀ row' ∈ s.windows.rows, row.2.z = row'.2.z → row = row'
  z_bounds : ∀ row ∈ s.windows.rows, ∃ z, row.2.z = some z ∧ 1 ≤ z ∧ z ≤ s.topZ

/-- A window is above all others. -/
def OnTop (s : WmStore N) (id : String) : Prop :=
  ∃ win z, s.windows.find? id = some (id, win) ∧ win.z = some z
    ∧ ∀ row ∈ s.windows.rows, row.1 ≠ id → ∃ z', row.2.z = some z' ∧ z' < z

/-- What an action does to the order: the counter does not go back, a window that is opened or focused is
on top, and no other window changes. -/
structure KeepsOrder [Add N] [NatCast N] (s : WmStore N) (a : WmAction N) : Prop where
  topZ_le : s.topZ ≤ (s.act a).topZ
  onTop_open : ∀ appId options saved now, a = .open appId options saved now →
    (s.act a).OnTop (s.target a)
  onTop_focus : ∀ id, a = .focus id → s.windows.find? id ≠ none → (s.act a).OnTop id
  frame : ∀ id, id ≠ s.target a → (s.act a).windows.find? id = s.windows.find? id

/-- An application that some actions open only as a single instance has at most one window. -/
def SingleInstances (actions : List (WmAction N)) (s : WmStore N) : Prop :=
  ∀ appId,
    (∀ options saved now, .open appId options saved now ∈ actions → options.singleInstance = true) →
    ∀ row ∈ s.windows.rows, ∀ row' ∈ s.windows.rows, row.2.appId = some appId →
      row'.2.appId = some appId → row = row'

/-- The windows know where to return to exactly if they are maximized. -/
def Linked (s : WmStore N) : Prop :=
  ∀ row ∈ s.windows.rows, row.2.restoreGeometry.isSome = true ↔ row.2.state = some .maximized

/-- The action is on no inherited property, and minimizes no maximized window. -/
def MinimizesNormal (s : WmStore N) (a : WmAction N) : Prop :=
  a.NamesOwn ∧
    ∀ id win, a = .minimize id → s.windows.find? id = some (id, win) → win.state ≠ some .maximized

/-- A window that is maximized returns to where it was when it next ceases to be so, whatever is done in
between. -/
def ReturnsAfter [Add N] [NatCast N] (s : WmStore N) (between : List (WmAction N)) : Prop :=
  ∀ id win, s.windows.find? id = some (id, win) → win.state ≠ some .maximized →
    .toggleMaximize id ∉ between →
      ∀ t win', machine.run (s.act (.toggleMaximize id)) between = some t →
        t.windows.find? id = some (id, win') → win'.state = some .maximized →
          ∃ win'', (t.act (.toggleMaximize id)).windows.find? id = some (id, win'')
            ∧ win''.state = some .normal ∧ win''.geometry = win.geometry

end WmStore
