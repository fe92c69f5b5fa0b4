import Mathlib.Data.List.Infix
import NasOs.Agent.Connection
import NasOs.Library.Traverse

/-!
# The health of a disk

`smartctl` prints a JSON object, of which `read` takes the fields that it knows, with conversions of the
language.  A field that is not there or of another type mostly counts as none; but the value as a whole is
searched for two keys before anything else is known of it, and the numbers of an attribute are converted
whatever they are.

Hence `read` returns if and only if the value is an object, or a list or a text that does not look like one
with a report, and the numbers in it can be converted.
-/

/-- What is left open of the conversions of numbers: each of them may raise. -/
structure PythonConversions (F : Type) where
  /-- `str` of a value. -/
  str : Json → String
  /-- `int` of a text. -/
  intOfText : String → Option ℤ
  /-- `int` of a float. -/
  intOfFloat : Json.FloatLiteral → Option ℤ
  /-- `float` of an integer. -/
  floatOfInt : ℤ → Option F
  /-- The value of a float. -/
  float : Json.FloatLiteral → F
  /-- `float` of a truth value. -/
  floatOfBool : Bool → F
  /-- A float is more than 0. -/
  isPositive : Json.FloatLiteral → Bool

/-- `StorageHealth`. -/
inductive StorageHealth where
  | ok
  | warning
  | critical
  | unknown

/-- `SmartAttribute`. -/
structure SmartAttribute where
  id : ℤ
  name : String
  value : ℤ
  worst : ℤ
  threshold : ℤ
  raw : String

/-- `DiskSmart`. -/
structure DiskSmart (F : Type) where
  health : StorageHealth
  temperatureC : Option F
  powerOnHours : Option ℤ
  attributes : List SmartAttribute

namespace Smart

/-- `SMARTCTL_ARGV`. -/
def smartctlArgv : List String :=
  ["smartctl", "--json=c", "-a"]

/-- `_WARNING_ATTRIBUTE_IDS`. -/
def warningAttributeIds : List ℤ :=
  [5, 197, 198]

/-- The value of a key in the value of a key. -/
def member (key key' : String) (parsed : Json) : Option Json :=
  (parsed.get? key).bind (Json.get? key')

/-- A text is in a value. -/
def contains (text : String) : Json → Except Exc Bool
  | .obj members => .ok (members.any fun m => m.1 == text)
  | .arr elements => .ok (elements.any fun element =>
      match element with
      | .str s => s == text
      | _ => false)
  | .str s => .ok (decide (text.toList <:+: s.toList))
  | j => .error (.other ("argument of type '" ++ j.typeName ++ "' is not iterable"))

/-- The entries of the table of attributes, if it is a list. -/
def entries (parsed : Json) : List Json :=
  match member "ata_smart_attributes" "table" parsed with
  | some (.arr entries) => entries
  | _ => []

variable {F : Type} (py : PythonConversions F)

/-- `int`. -/
def toInt : Json → Except Exc ℤ
  | .bool b => .ok (if b then 1 else 0)
  | .int z => .ok z
  | .float x =>
      match py.intOfFloat x with
      | some z => .ok z
      | none => .error (.other "cannot convert float to integer")
  | .str s =>
      match py.intOfText s with
      | some z => .ok z
      | none => .error (.other "invalid literal for int() with base 10")
  | j => .error (.other ("int() argument must be a string, a bytes-like object or a real number, not '"
      ++ j.typeName ++ "'"))

/-- `int` of the value of a key, or of 0 where there is none. -/
def intOf (key : String) (entry : Json) : Except Exc ℤ :=
  match entry.get? key with
  | none => .ok 0
  | some value => toInt py value

/-- The raw value of an attribute is a number that is more than 0. -/
def hasRawValue (entry : Json) : Bool :=
  match member "raw" "value" entry with
  | some (.bool b) => b
  | some (.int z) => 0 < z
  | some (.float x) => py.isPositive x
  | _ => false

/-- `_has_warning_attributes`, of the entries of the table. -/
def hasWarningAttributes : List Json → Except Exc Bool
  | [] => .ok false
  | .obj members :: entries => do
      let id ← intOf py "id" (.obj members)
      if id ∈ warningAttributeIds ∧ hasRawValue py (.obj members) then .ok true
      else hasWarningAttributes entries
  | _ :: entries => hasWarningAttributes entries

/-- `_health`. -/
def health (parsed : Json) : Except Exc StorageHealth := do
  let _ ← parsed.attrGet "smart_status"
  match member "smart_status" "passed" parsed with
  | some (.bool false) => .ok .critical
  | some (.bool true) => do
      let warning ← hasWarningAttributes py (entries parsed)
      .ok (if warning then .warning else .ok)
  | _ => .ok .unknown

/-- `_temperature`. -/
def temperature (parsed : Json) : Except Exc (Option F) :=
  match member "temperature" "current" parsed with
  | some (.bool b) => .ok (some (py.floatOfBool b))
  | some (.int z) =>
      match py.floatOfInt z with
      | some x => .ok (some x)
      | none => .error (.other "int too large to convert to float")
  | some (.float x) => .ok (some (py.float x))
  | _ => .ok none

/-- `_power_on_hours`. -/
def powerOnHours (parsed : Json) : Except Exc (Option ℤ) :=
  match member "power_on_time" "hours" parsed with
  | some (.bool b) => (toInt py (.bool b)).map some
  | some (.int z) => (toInt py (.int z)).map some
  | some (.float x) => (toInt py (.float x)).map some
  | _ => .ok none

/-- The attribute of an entry. -/
def smartAttribute (entry : Json) : Except Exc SmartAttribute := do
  let rawString :=
    match entry.get? "raw" with
    | some (.obj raw) => (Json.get? "string" (.obj raw)).getD (.str "")
    | _ => .str ""
  let id ← intOf py "id" entry
  let value ← intOf py "value" entry
  let worst ← intOf py "worst" entry
  let threshold ← intOf py "thresh" entry
  .ok {
    id, name := ((entry.get? "name").map py.str).getD "", value, worst, threshold, raw := py.str rawString
  }

/-- `_attributes`, of the entries of the table. -/
def attributes : List Json → Except Exc (List SmartAttribute)
  | [] => .ok []
  | .obj members :: entries => do
      let first ← smartAttribute py (.obj members)
      let rest ← attributes entries
      .ok (first :: rest)
  | _ :: entries => attributes entries

/-- The report that a value is. -/
def report (parsed : Json) : Except Exc (DiskSmart F) := do
  let health ← health py parsed
  let temperatureC ← temperature py parsed
  let powerOnHours ← powerOnHours py parsed
  let attributes ← attributes py (entries parsed)
  .ok { health, temperatureC, powerOnHours, attributes }

/-- `read`, of what `json.loads` makes of the output. -/
def read : Loaded → Except Exc (Option (DiskSmart F))
  | .decodeError => .ok none
  | .raised => .error (.other "json.loads")
  | .value parsed => do
      let hasStatus ← contains "smart_status" parsed
      let hasAttributes ← if hasStatus then .ok true else contains "ata_smart_attributes" parsed
      if hasAttributes then (report py parsed).map some else .ok none

/-! ### What can be read -/

/-- A value that `int` takes. -/
def IntLike : Json → Prop
  | .bool _ => True
  | .int _ => True
  | .float x => (py.intOfFloat x).isSome
  | .str s => (py.intOfText s).isSome
  | _ => False

/-- The numbers of an attribute can be converted, those that are there. -/
def EntryReadable (entry : Json) : Prop :=
  ∀ key ∈ ["id", "value", "worst", "thresh"], ∀ value ∈ entry.get? key, IntLike py value

/-- The numbers of a report can be converted: the temperature is no integer that is too large, the hours
are no float that is no integer, and so on for the numbers of the attributes that are objects. -/
structure NumbersReadable (parsed : Json) : Prop where
  temperature : ∀ z, member "temperature" "current" parsed = some (.int z) → (py.floatOfInt z).isSome
  hours : ∀ x, member "power_on_time" "hours" parsed = some (.float x) → (py.intOfFloat x).isSome
  entries : ∀ entry ∈ entries parsed, entry.isObject = true → EntryReadable py entry

/-- A value that can be read: an object, whose numbers can be converted if it has a report, or a list or a
text in which no report is looked for. -/
def Readable (parsed : Json) : Prop :=
  match parsed with
  | .obj members =>
      (∃ m ∈ members, m.1 = "smart_status" ∨ m.1 = "ata_smart_attributes") →
        NumbersReadable py (.obj members)
  | .arr elements => ∀ s, .str s ∈ elements → s ≠ "smart_status" ∧ s ≠ "ata_smart_attributes"
  | .str s => ¬ "smart_status".toList <:+: s.toList ∧ ¬ "ata_smart_attributes".toList <:+: s.toList
  | _ => False

/-- An output that can be read: no JSON at all, or a value that can be read. -/
def OutputReadable : Loaded → Prop
  | .decodeError => True
  | .raised => False
  | .value parsed => Readable py parsed

/-! ### What is read -/

variable {py}

/-- `int` takes exactly the values that it can convert. -/
theorem toInt_iff {value : Json} :
  (∃ z, toInt py value = .ok z) ↔ IntLike py value
  := by
  cases value with
  | float x =>
      rw [toInt, IntLike]
      cases py.intOfFloat x with
      | none => simp
      | some z => simp
  | str s =>
      rw [toInt, IntLike]
      cases py.intOfText s with
      | none => simp
      | some z => simp
  | _ => simp [toInt, IntLike]

/-- The value of a key is converted if it is not there or can be. -/
theorem intOf_iff {key : String} {entry : Json} :
  (∃ z, intOf py key entry = .ok z) ↔ ∀ value ∈ entry.get? key, IntLike py value
  := by
  rw [intOf]
  cases entry.get? key with
  | none => simp
  | some value =>
      rw [toInt_iff]
      simp

/-- An entry is made an attribute if and only if its numbers can be converted. -/
theorem smartAttribute_iff {entry : Json} :
  (∃ made, smartAttribute py entry = .ok made) ↔ EntryReadable py entry
  := by
  rw [EntryReadable]
  simp only [List.mem_cons, List.not_mem_nil, or_false, forall_eq_or_imp, forall_eq, ← intOf_iff]
  constructor
  · rintro ⟨a, h⟩
    obtain ⟨id, hid, h⟩ := Except.bind_eq_ok_iff.mp h
    obtain ⟨value, hvalue, h⟩ := Except.bind_eq_ok_iff.mp h
    obtain ⟨worst, hworst, h⟩ := Except.bind_eq_ok_iff.mp h
    obtain ⟨threshold, hthreshold, -⟩ := Except.bind_eq_ok_iff.mp h
    exact ⟨⟨id, hid⟩, ⟨value, hvalue⟩, ⟨worst, hworst⟩, ⟨threshold, hthreshold⟩⟩
  · rintro ⟨⟨id, hid⟩, ⟨value, hvalue⟩, ⟨worst, hworst⟩, ⟨threshold, hthreshold⟩⟩
    rw [smartAttribute, hid, hvalue, hworst, hthreshold]
    exact ⟨_, rfl⟩

/-- The attributes are read if and only if the numbers of the entries that are objects can be
converted. -/
theorem attributes_iff {entries : List Json} :
  (∃ l, attributes py entries = .ok l) ↔ ∀ entry ∈ entries, entry.isObject = true → EntryReadable py entry
  := by
  induction entries with
  | nil => simp [attributes]
  | cons entry entries ih =>
      rw [List.forall_mem_cons, ← ih]
      cases entry with
      | obj members =>
          rw [attributes, ← smartAttribute_iff]
          constructor
          · rintro ⟨l, h⟩
            obtain ⟨first, hfirst, h⟩ := Except.bind_eq_ok_iff.mp h
            obtain ⟨rest, hrest, -⟩ := Except.bind_eq_ok_iff.mp h
            exact ⟨fun _ => ⟨first, hfirst⟩, rest, hrest⟩
          · rintro ⟨hfirst, rest, hrest⟩
            obtain ⟨first, hfirst⟩ := hfirst rfl
            rw [hfirst, hrest]
            exact ⟨_, rfl⟩
      | _ => simp [attributes, Json.isObject]

/-- Looking for warnings converts no other numbers. -/
theorem exists_hasWarningAttributes {entries : List Json}
    (h : ∀ entry ∈ entries, entry.isObject = true → EntryReadable py entry) :
  ∃ warning, hasWarningAttributes py entries = .ok warning
  := by
  induction entries with
  | nil => exact ⟨false, rfl⟩
  | cons entry entries ih =>
      obtain ⟨hentry, hentries⟩ := List.forall_mem_cons.mp h
      obtain ⟨rest, hrest⟩ := ih hentries
      cases entry with
      | obj members =>
          obtain ⟨id, hid⟩ := intOf_iff.mpr (hentry rfl "id" List.mem_cons_self)
          rw [hasWarningAttributes, hid, hrest]
          simp only [bind, Except.bind]
          split
          · exact ⟨true, rfl⟩
          · exact ⟨rest, rfl⟩
      | _ => exact ⟨rest, hrest⟩

/-- The temperature is read, unless it is an integer that is too large. -/
theorem temperature_iff {parsed : Json} :
  (∃ x, temperature py parsed = .ok x)
    ↔ ∀ z, member "temperature" "current" parsed = some (.int z) → (py.floatOfInt z).isSome
  := by
  rw [temperature]
  cases member "temperature" "current" parsed with
  | none => simp
  | some current =>
      cases current with
      | int z =>
          cases hfloat : py.floatOfInt z with
          | none => simp [hfloat]
          | some x => simp [hfloat]
      | _ => simp

/-- The hours are read, unless they are a float that is no integer. -/
theorem powerOnHours_iff {parsed : Json} :
  (∃ x, powerOnHours py parsed = .ok x)
    ↔ ∀ x, member "power_on_time" "hours" parsed = some (.float x) → (py.intOfFloat x).isSome
  := by
  rw [powerOnHours]
  cases member "power_on_time" "hours" parsed with
  | none => simp
  | some hours =>
      cases hours with
      | float x =>
          cases hint : py.intOfFloat x with
          | none => simp [toInt, hint, Except.map]
          | some z => simp [toInt, hint, Except.map]
      | _ => simp [toInt, Except.map]

/-- A report is read if and only if the value is an object whose numbers can be converted. -/
theorem report_iff {parsed : Json} :
  (∃ smart, report py parsed = .ok smart) ↔ parsed.isObject = true ∧ NumbersReadable py parsed
  := by
  constructor
  · rintro ⟨smart, h⟩
    obtain ⟨health, hhealth, h⟩ := Except.bind_eq_ok_iff.mp h
    obtain ⟨temperature, htemperature, h⟩ := Except.bind_eq_ok_iff.mp h
    obtain ⟨hours, hhours, h⟩ := Except.bind_eq_ok_iff.mp h
    obtain ⟨attributes, hattributes, -⟩ := Except.bind_eq_ok_iff.mp h
    obtain ⟨found, hfound, -⟩ := Except.bind_eq_ok_iff.mp hhealth
    obtain ⟨members, rfl, -⟩ := Json.attrGet_eq_ok_iff.mp hfound
    refine ⟨rfl, ?_⟩
    constructor
    · exact temperature_iff.mp ⟨temperature, htemperature⟩
    · exact powerOnHours_iff.mp ⟨hours, hhours⟩
    · exact attributes_iff.mp ⟨attributes, hattributes⟩
  · rintro ⟨hobject, hnumbers⟩
    cases parsed with
    | obj members =>
        obtain ⟨temperature, htemperature⟩ := temperature_iff.mpr hnumbers.temperature
        obtain ⟨hours, hhours⟩ := powerOnHours_iff.mpr hnumbers.hours
        obtain ⟨attributes, hattributes⟩ := attributes_iff.mpr hnumbers.entries
        obtain ⟨warning, hwarning⟩ := exists_hasWarningAttributes hnumbers.entries
        have hhealth : ∃ status, health py (.obj members) = .ok status := by
          simp only [health, Json.attrGet, bind, Except.bind]
          split
          · exact ⟨_, rfl⟩
          · rw [hwarning]
            exact ⟨_, rfl⟩
          · exact ⟨_, rfl⟩
        obtain ⟨status, hstatus⟩ := hhealth
        rw [report, hstatus, htemperature, hhours, hattributes]
        exact ⟨_, rfl⟩
    | _ => cases hobject

/-- In a value that can be searched, a report is looked for if one of the two keys is found. -/
theorem read_value_iff {parsed : Json} {hasStatus hasAttributes : Bool}
    (hstatus : contains "smart_status" parsed = .ok hasStatus)
    (hattributes : contains "ata_smart_attributes" parsed = .ok hasAttributes) :
  (∃ smart, read py (.value parsed) = .ok smart)
    ↔ (hasStatus = true ∨ hasAttributes = true → ∃ smart, report py parsed = .ok smart)
  := by
  have hmap : (∃ smart, (report py parsed).map some = .ok smart) ↔ ∃ smart, report py parsed = .ok smart := by
    cases report py parsed with
    | error e => simp [Except.map]
    | ok smart => simp [Except.map]
  rw [read, hstatus]
  simp only [bind, Except.bind]
  cases hasStatus with
  | true => simpa using hmap
  | false =>
      rw [if_neg Bool.false_ne_true, hattributes]
      cases hasAttributes with
      | true => simpa using hmap
      | false => simp

/-- A text is among some values. -/
theorem any_text_iff {text : String} {elements : List Json} :
  (elements.any fun element =>
      match element with
      | .str s => s == text
      | _ => false) = true
    ↔ .str text ∈ elements
  := by
  rw [List.any_eq_true]
  constructor
  · rintro ⟨element, helement, htext⟩
    cases element with
    | str s =>
        rw [← eq_of_beq htext]
        exact helement
    | _ => cases htext
  · intro h
    exact ⟨.str text, h, beq_self_eq_true text⟩

/-- An output is read, as a report or as none, if and only if it can be. -/
theorem read_iff {loaded : Loaded} :
  (∃ smart, read py loaded = .ok smart) ↔ OutputReadable py loaded
  := by
  cases loaded with
  | decodeError => exact iff_of_true ⟨none, rfl⟩ trivial
  | raised =>
      apply iff_of_false
      · rintro ⟨smart, ⟨⟩⟩
      · exact id
  | value parsed =>
      rw [OutputReadable, Readable.eq_def]
      cases parsed with
      | obj members =>
          rw [read_value_iff rfl rfl, report_iff, List.any_eq_true, List.any_eq_true]
          constructor
          · rintro hreport ⟨m, hm, hkey⟩
            refine (hreport ?_).2
            rcases hkey with hkey | hkey
            · exact .inl ⟨m, hm, beq_iff_eq.mpr hkey⟩
            · exact .inr ⟨m, hm, beq_iff_eq.mpr hkey⟩
          · intro hnumbers hfound
            refine ⟨rfl, hnumbers ?_⟩
            rcases hfound with ⟨m, hm, hkey⟩ | ⟨m, hm, hkey⟩
            · exact ⟨m, hm, .inl (eq_of_beq hkey)⟩
            · exact ⟨m, hm, .inr (eq_of_beq hkey)⟩
      | arr elements =>
          have hreport : ¬ ∃ smart, report py (.arr elements) = .ok smart := by
            rw [report_iff]
            exact fun h => Bool.false_ne_true h.1
          rw [read_value_iff rfl rfl, any_text_iff, any_text_iff]
          constructor
          · intro h s hs
            constructor
            · rintro rfl
              exact hreport (h (.inl hs))
            · rintro rfl
              exact hreport (h (.inr hs))
          · rintro h (hs | hs)
            · exact absurd rfl (h _ hs).1
            · exact absurd rfl (h _ hs).2
      | str s =>
          have hreport : ¬ ∃ smart, report py (.str s) = .ok smart := by
            rw [report_iff]
            exact fun h => Bool.false_ne_true h.1
          rw [read_value_iff rfl rfl, decide_eq_true_iff, decide_eq_true_iff]
          constructor
          · intro h
            constructor
            · intro hs
              exact hreport (h (.inl hs))
            · intro hs
              exact hreport (h (.inr hs))
          · rintro h (hs | hs)
            · exact absurd hs h.1
            · exact absurd hs h.2
      | _ =>
          apply iff_of_false
          · rintro ⟨smart, ⟨⟩⟩
          · exact id

end Smart
