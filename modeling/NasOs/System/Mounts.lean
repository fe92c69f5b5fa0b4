import Mathlib.Data.List.Find
import NasOs.Library.Path
import NasOs.Library.Words
import NasOs.Rpc.Dispatcher

/-!
# The mount table

`/proc/mounts` has a line for each filesystem, in which whitespace and backslashes of a path are written in
octal; a filesystem that is mounted over another comes after it.  `filesystem_type` takes a line apart at
whitespace of any kind, does not read what is octal, and stops at the first line with the path.

Other whitespace is not escaped in the table, so that a device or a type with some is several words, and
an empty one is none: the line cannot be read by its words.  In a table without such lines it is told what the
topmost filesystem at each mountpoint is, and `register` takes the mountpoints that it is to take, if and only
if no mountpoint has whitespace or backslashes in it, the first filesystem at each is written with the type of
the last, `os.path.ismount` sees the mountpoints, and none is too long for a request.
-/

namespace ProcMounts

/-- `filesystem_type`, of what is in `/proc/mounts`. -/
def filesystemType (text path : List Char) : Option (List Char) :=
  (Text.records '\n' (Text.universalNewlines text)).findSome? fun line =>
    match Text.words line with
    | _ :: mountpoint :: type :: _ => if mountpoint = path then some type else none
    | _ => none

end ProcMounts

/-- `VolumeRegisterParams`. -/
structure VolumeRegisterParams where
  mountpoint : String
  length_pos : 1 ≤ mountpoint.length
  length_le : mountpoint.length ≤ 255

/-- The schema of the params. -/
def VolumeRegisterParams.validate (mountpoint : String) : Option VolumeRegisterParams :=
  if h : 1 ≤ mountpoint.length ∧ mountpoint.length ≤ 255 then some ⟨mountpoint, h.1, h.2⟩ else none

/-- `VolumeInfo`. -/
structure VolumeInfo where
  mountpoint : String
  filesystem : String

namespace Volumes

/-- `_FORBIDDEN_PREFIXES`. -/
def forbiddenPrefixes : List String :=
  ["/boot"]

/-- `_is_forbidden`. -/
def isForbidden (mountpoint : List Char) : Bool :=
  if mountpoint = ['/'] then true
  else forbiddenPrefixes.any fun p => mountpoint = p.toList || (p.toList ++ ['/']).isPrefixOf mountpoint

/-- The mountpoint of a request: without slashes at its end, unless it is made of nothing else. -/
def mountpointOf (mountpoint : String) : List Char :=
  if Path.stripEnd mountpoint.toList = [] then ['/'] else Path.stripEnd mountpoint.toList

/-- `register`, with `os.path.ismount` and what is in `/proc/mounts`. -/
def register (isMountpoint : List Char → Bool) (text : List Char) (params : VolumeRegisterParams) :
    Except Exc VolumeInfo :=
  let mountpoint := mountpointOf params.mountpoint
  if isForbidden mountpoint then
    .error (.rpcException "forbidden"
      (String.ofList mountpoint ++ " cannot be registered as a NAS-OS volume"))
  else if !isMountpoint mountpoint then
    .error (.rpcException "not_a_mountpoint" (String.ofList mountpoint ++ " is not a mountpoint"))
  else
    match ProcMounts.filesystemType text mountpoint with
    | none =>
        .error (.rpcException "not_a_mountpoint" (String.ofList mountpoint ++ " is not in /proc/mounts"))
    | some filesystem => .ok ⟨String.ofList mountpoint, String.ofList filesystem⟩

/-- A call of `volumes.register`, where `invalid` is the text of the error for params that do not
validate. -/
def call (invalid : String → String) (isMountpoint : List Char → Bool) (text : List Char)
    (mountpoint : String) : Except RpcError VolumeInfo :=
  match VolumeRegisterParams.validate mountpoint with
  | none => .error ⟨"invalid_params", invalid mountpoint⟩
  | some params => (register isMountpoint text params).mapError Dispatcher.rpcError

end Volumes

/-! ### The table -/

/-- An absolute path without a slash at its end, unless it is the root. -/
abbrev MountPath : Type :=
  { path : List Char // path.head? = some '/' ∧ (path.getLast? = some '/' → path = ['/']) }

/-- A filesystem and where it is mounted. -/
structure MountEntry where
  device : List Char
  mountpoint : MountPath
  type : List Char
  options : List Char

namespace MountEntry

/-- A character as it is written in the table. -/
def escapeChar (c : Char) : List Char :=
  if c = ' ' then ['\\', '0', '4', '0']
  else if c = '\t' then ['\\', '0', '1', '1']
  else if c = '\n' then ['\\', '0', '1', '2']
  else if c = '\\' then ['\\', '1', '3', '4']
  else [c]

/-- A text as it is written in the table. -/
def escape (text : List Char) : List Char :=
  text.flatMap escapeChar

/-- The line of a filesystem. -/
def line (entry : MountEntry) : List Char :=
  escape entry.device ++ ' ' :: (escape entry.mountpoint.1 ++ ' ' :: (escape entry.type
    ++ ' ' :: (escape entry.options ++ " 0 0".toList)))

/-- A text is one word of the table: there is something, and no whitespace that is not escaped. -/
def IsTableWord (text : List Char) : Prop :=
  text ≠ [] ∧ ∀ c ∈ text, Text.isSpace c = true → c = ' ' ∨ c = '\t' ∨ c = '\n'

/-- The line of a filesystem can be read by its words: the device and the type are one word each, and no
carriage return in the options breaks it. -/
structure Legible (entry : MountEntry) : Prop where
  device : IsTableWord entry.device
  type : IsTableWord entry.type
  options : '\r' ∉ entry.options

end MountEntry

/-- The filesystems in the order in which they were mounted. -/
abbrev MountTable : Type :=
  List MountEntry

namespace MountTable

open MountEntry

/-- What is in `/proc/mounts`. -/
def text (table : MountTable) : List Char :=
  table.flatMap fun entry => entry.line ++ ['\n']

/-- The mountpoints of the table. -/
def mountpoints (table : MountTable) : List (List Char) :=
  table.map fun entry => entry.mountpoint.1

/-- The type of the topmost filesystem at a mountpoint. -/
def topmost (table : MountTable) (path : List Char) : Option (List Char) :=
  (table.reverse.find? fun entry => entry.mountpoint.1 = path).map fun entry => entry.type

/-- `filesystem_type` tells the topmost filesystem at each mountpoint. -/
def Resolved (table : MountTable) : Prop :=
  ∀ path ∈ table.mountpoints, ProcMounts.filesystemType table.text path = table.topmost path

/-- A mountpoint may be registered. -/
def Allowed (table : MountTable) (path : List Char) : Prop :=
  path ∈ table.mountpoints ∧ path ≠ ['/'] ∧ path ≠ "/boot".toList ∧ ¬ "/boot/".toList <+: path

/-- A call succeeds for exactly the mountpoints that may be registered, as they are or with more slashes at
their end, if these do not make the request too long. -/
def Registers (invalid : String → String) (isMountpoint : List Char → Bool) (table : MountTable) : Prop :=
  ∀ request : String, Volumes.mountpointOf request = request.toList ∨ request.length ≤ 255 →
    ((∃ info, Volumes.call invalid isMountpoint table.text request = .ok info)
      ↔ table.Allowed (Volumes.mountpointOf request))

/-- The table is read rightly by taking its lines apart at whitespace, and stopping at the first with a
path. -/
structure Plain (table : MountTable) : Prop where
  mountpoints : ∀ path ∈ table.mountpoints, ∀ c ∈ path, Text.isSpace c = false ∧ c ≠ '\\'
  types : ∀ path ∈ table.mountpoints,
    (table.find? fun entry => entry.mountpoint.1 = path).map (fun entry => escape entry.type)
      = table.topmost path

/-! ### What is read -/

/-- A character is written as it is, or as a backslash and digits. -/
theorem escapeChar_cases (c : Char) :
  (escapeChar c = [c] ∧ c ≠ ' ' ∧ c ≠ '\t' ∧ c ≠ '\n' ∧ c ≠ '\\')
    ∨ (escapeChar c).length = 4 ∧ ∀ d ∈ escapeChar c, Text.isSpace d = false
  := by
  rw [escapeChar]
  split
  · right
    simp [Text.isSpace]
  · split
    · right
      simp [Text.isSpace]
    · split
      · right
        simp [Text.isSpace]
      · split
        · right
          simp [Text.isSpace]
        · left
          exact ⟨rfl, ‹_›, ‹_›, ‹_›, ‹_›⟩

/-- What is written in the table has no whitespace, unless there was some that is not escaped. -/
theorem isSpace_of_mem_escape {text : List Char}
    (h : ∀ c ∈ text, Text.isSpace c = true → c = ' ' ∨ c = '\t' ∨ c = '\n') :
  ∀ c ∈ escape text, Text.isSpace c = false
  := by
  intro c hc
  obtain ⟨d, hd, hc⟩ := List.mem_flatMap.mp hc
  rcases escapeChar_cases d with ⟨hself, hspace, htab, hnewline, -⟩ | ⟨-, hescaped⟩
  · rw [hself, List.mem_singleton] at hc
    subst hc
    rw [Bool.eq_false_iff]
    intro hblank
    rcases h c hd hblank with heq | heq | heq
    · exact hspace heq
    · exact htab heq
    · exact hnewline heq
  · exact hescaped c hc

/-- A text without whitespace and backslashes is written as it is. -/
theorem escape_eq_self {text : List Char} (h : ∀ c ∈ text, Text.isSpace c = false ∧ c ≠ '\\') :
  escape text = text
  := by
  have hsingle : ∀ c ∈ text, escapeChar c = [c] := by
    intro c hc
    obtain ⟨hspace, hbackslash⟩ := h c hc
    have hne : ∀ d, Text.isSpace d = true → c ≠ d := by
      rintro d hd rfl
      rw [hspace] at hd
      cases hd
    rw [escapeChar, if_neg (hne ' ' (by decide)), if_neg (hne '\t' (by decide)),
      if_neg (hne '\n' (by decide)), if_neg hbackslash]
  rw [escape, List.flatMap_congr hsingle, List.flatMap_singleton']

/-- What is written is not shorter. -/
theorem length_le_length_escape (text : List Char) :
  text.length ≤ (escape text).length
  := by
  induction text with
  | nil => exact Nat.zero_le _
  | cons c text ih =>
      have hchar : 1 ≤ (escapeChar c).length := by
        rcases escapeChar_cases c with ⟨hself, -⟩ | ⟨hlength, -⟩
        · rw [hself, List.length_singleton]
        · omega
      rw [escape, List.flatMap_cons, List.length_append, List.length_cons]
      rw [escape] at ih
      omega

/-- A backslash makes what is written longer. -/
theorem length_lt_length_escape {text : List Char} (h : '\\' ∈ text) :
  text.length < (escape text).length
  := by
  obtain ⟨before, after, rfl⟩ := List.append_of_mem h
  have hbefore := length_le_length_escape before
  have hafter := length_le_length_escape after
  have hbackslash : (escapeChar '\\').length = 4 := by
    decide
  rw [escape] at hbefore hafter
  rw [escape, List.flatMap_append, List.flatMap_cons, List.length_append, List.length_append,
    List.length_append, List.length_cons, hbackslash]
  omega

/-- A field that is written has something and no whitespace. -/
theorem of_escape_field {field : List Char} (h : IsTableWord field) :
  escape field ≠ [] ∧ ∀ c ∈ escape field, Text.isSpace c = false
  := by
  constructor
  · intro hempty
    have hlength := length_le_length_escape field
    rw [hempty, List.length_nil] at hlength
    exact h.1 (List.length_eq_zero_iff.mp (Nat.le_zero.mp hlength))
  · exact isSpace_of_mem_escape h.2

/-- What is written in the table has no other characters than those of escapes and of the text. -/
theorem mem_escape {text : List Char} {c : Char} (h : c ∈ escape text) (hc : Text.isSpace c = true) :
  c ∈ text
  := by
  obtain ⟨d, hd, hmem⟩ := List.mem_flatMap.mp h
  rcases escapeChar_cases d with ⟨hself, -⟩ | ⟨-, hescaped⟩
  · rw [hself, List.mem_singleton] at hmem
    rw [hmem]
    exact hd
  · rw [hescaped c hmem] at hc
    cases hc

/-- A mountpoint that is written, without whitespace in it, has something and no whitespace. -/
theorem of_escape_mountpoint {path : MountPath} (h : ∀ c ∈ path.1, Text.isSpace c = false) :
  escape path.1 ≠ [] ∧ ∀ c ∈ escape path.1, Text.isSpace c = false
  := by
  have hne : path.1 ≠ [] := by
    intro hempty
    have hhead := path.2.1
    rw [hempty] at hhead
    cases hhead
  apply of_escape_field
  use hne
  intro c hc hspace
  rw [h c hc] at hspace
  cases hspace

section

variable {entry : MountEntry} (hlegible : entry.Legible)
  (h : ∀ c ∈ entry.mountpoint.1, Text.isSpace c = false)

include hlegible h

/-- The first words of a line are its fields. -/
theorem words_line :
  ∃ rest, Text.words entry.line
    = escape entry.device :: escape entry.mountpoint.1 :: escape entry.type :: rest
  := by
  have hdevice := of_escape_field hlegible.device
  have hmountpoint := of_escape_mountpoint h
  have htype := of_escape_field hlegible.type
  rw [MountEntry.line, Text.words_append_space hdevice.1 hdevice.2,
    Text.words_append_space hmountpoint.1 hmountpoint.2, Text.words_append_space htype.1 htype.2]
  exact ⟨_, rfl⟩

/-- A line is not broken. -/
theorem of_mem_line {c : Char} (hc : c ∈ entry.line) :
  c ≠ '\n' ∧ c ≠ '\r'
  := by
  have hword : ∀ c : Char, Text.isSpace c = false → c ≠ '\n' ∧ c ≠ '\r' := by
    intro c hspace
    constructor
    · rintro rfl
      revert hspace
      decide
    · rintro rfl
      revert hspace
      decide
  simp only [MountEntry.line, List.mem_append, List.mem_cons] at hc
  rcases hc with hc | rfl | hc | rfl | hc | rfl | hc | hc
  · exact hword c ((of_escape_field hlegible.device).2 c hc)
  · decide
  · exact hword c ((of_escape_mountpoint h).2 c hc)
  · decide
  · exact hword c ((of_escape_field hlegible.type).2 c hc)
  · decide
  · constructor
    · rintro rfl
      obtain ⟨d, -, hd⟩ := List.mem_flatMap.mp hc
      rcases escapeChar_cases d with ⟨hself, -, -, hnewline, -⟩ | ⟨-, hescaped⟩
      · rw [hself, List.mem_singleton] at hd
        exact hnewline hd.symm
      · have hspace := hescaped '\n' hd
        revert hspace
        decide
    · rintro rfl
      exact hlegible.options (mem_escape hc (by decide))
  · have htrailer : c = ' ' ∨ c = '0' ∨ c = ' ' ∨ c = '0' := by
      simpa using hc
    rcases htrailer with rfl | rfl | rfl | rfl
    all_goals decide

end

section

variable {table : MountTable} (hlegible : ∀ entry ∈ table, entry.Legible)
  (h : ∀ path ∈ table.mountpoints, ∀ c ∈ path, Text.isSpace c = false)

include hlegible h

/-- The lines of the table are read as they are. -/
theorem records_text :
  Text.records '\n' (Text.universalNewlines table.text) = table.map MountEntry.line
  := by
  have hunbroken : ∀ entry ∈ table, ∀ c ∈ entry.line, c ≠ '\n' ∧ c ≠ '\r' := by
    intro entry hentry c hc
    exact of_mem_line (hlegible entry hentry) (h _ (List.mem_map_of_mem hentry)) hc
  have hreturn : '\r' ∉ table.text := by
    intro hmem
    obtain ⟨entry, hmem, hc⟩ := List.mem_flatMap.mp hmem
    rcases List.mem_append.mp hc with hc | hc
    · exact (hunbroken entry hmem '\r' hc).2 rfl
    · revert hc
      decide
  have htext : table.text = (table.map MountEntry.line).flatMap fun line => line ++ ['\n'] := by
    rw [text, List.flatMap_map]
  rw [Text.universalNewlines_eq_self hreturn, htext, Text.records_flatMap]
  intro line hline hnewline
  obtain ⟨entry, hmem, rfl⟩ := List.mem_map.mp hline
  exact (hunbroken entry hmem '\n' hnewline).1 rfl

/-- The line of each filesystem is taken apart into its fields, if there is no other whitespace in the
mountpoints. -/
theorem filesystemType_text (path : List Char) :
  ProcMounts.filesystemType table.text path
    = (table.find? fun entry => escape entry.mountpoint.1 = path).map fun entry => escape entry.type
  := by
  rw [ProcMounts.filesystemType, records_text hlegible h]
  induction table with
  | nil => rfl
  | cons entry table ih =>
      obtain ⟨rest, hwords⟩ := words_line (hlegible _ List.mem_cons_self) (h _ List.mem_cons_self)
      rw [List.map_cons, List.findSome?_cons, List.find?_cons, hwords]
      by_cases heq : escape entry.mountpoint.1 = path
      · simp [heq]
      · simp only [heq, if_false, decide_false]
        apply ih
        · intro other hother
          exact hlegible other (List.mem_cons_of_mem _ hother)
        · intro path hpath
          exact h path (List.mem_cons_of_mem _ hpath)

/-- In a table without whitespace in the mountpoints, a path is found only if it is written. -/
theorem exists_escape_of_filesystemType {path type : List Char}
    (htype : ProcMounts.filesystemType table.text path = some type) :
  ∃ other ∈ table.mountpoints, escape other = path
  := by
  rw [filesystemType_text hlegible h] at htype
  obtain ⟨entry, hentry, -⟩ := Option.map_eq_some_iff.mp htype
  have hpath := List.find?_some hentry
  refine ⟨entry.mountpoint.1, List.mem_map_of_mem (List.mem_of_find?_eq_some hentry), ?_⟩
  exact of_decide_eq_true hpath

end

/-- There is a filesystem at each mountpoint. -/
theorem exists_topmost {table : MountTable} {path : List Char} (h : path ∈ table.mountpoints) :
  ∃ type, table.topmost path = some type
  := by
  obtain ⟨entry, hentry, rfl⟩ := List.mem_map.mp h
  rw [← Option.isSome_iff_exists, topmost, Option.isSome_map, List.find?_isSome]
  exact ⟨entry, List.mem_reverse.mpr hentry, decide_eq_true rfl⟩

/-- A path of which something is told is a word. -/
theorem isSpace_of_filesystemType {text path type : List Char}
    (h : ProcMounts.filesystemType text path = some type) :
  ∀ c ∈ path, Text.isSpace c = false
  := by
  obtain ⟨line, -, hline⟩ := List.exists_of_findSome?_eq_some h
  have hmem : path ∈ Text.words line := by
    split at hline
    · rename_i hwords
      rw [hwords]
      split at hline
      · rename_i heq
        rw [heq]
        exact List.mem_cons_of_mem _ List.mem_cons_self
      · cases hline
    · cases hline
  exact Text.of_mem_words hmem

/-- If each mountpoint is that of another as it is written, then there are no backslashes: those would make
it longer than the other. -/
theorem backslash_notMem {table : MountTable}
    (hspace : ∀ path ∈ table.mountpoints, ∀ c ∈ path, Text.isSpace c = false)
    (h : ∀ path ∈ table.mountpoints, ∃ other ∈ table.mountpoints, escape other = path) :
  ∀ path ∈ table.mountpoints, '\\' ∉ path
  := by
  intro path
  induction hn : path.length using Nat.strong_induction_on generalizing path with
  | _ n ih =>
      intro hpath hbackslash
      obtain ⟨other, hother, rfl⟩ := h path hpath
      by_cases hagain : '\\' ∈ other
      · have hlength := length_lt_length_escape hagain
        exact ih other.length (by omega) other rfl hother hagain
      · have hself : escape other = other := by
          apply escape_eq_self
          intro c hc
          refine ⟨hspace other hother c hc, ?_⟩
          rintro rfl
          exact hagain hc
        rw [hself] at hbackslash
        exact hagain hbackslash

section

variable {table : MountTable} (hlegible : ∀ entry ∈ table, entry.Legible)

include hlegible

/-- In a table without whitespace and backslashes in the mountpoints, the first filesystem at a path is
found. -/
theorem filesystemType_of_plain
    (h : ∀ path ∈ table.mountpoints, ∀ c ∈ path, Text.isSpace c = false ∧ c ≠ '\\') (path : List Char) :
  ProcMounts.filesystemType table.text path
    = (table.find? fun entry => entry.mountpoint.1 = path).map fun entry => escape entry.type
  := by
  have hfind : (table.find? fun entry => escape entry.mountpoint.1 = path)
      = table.find? fun entry => entry.mountpoint.1 = path := by
    apply List.find?_congr
    intro entry hentry
    rw [escape_eq_self (h _ (List.mem_map_of_mem hentry))]
  rw [filesystemType_text hlegible fun path hpath c hc => (h path hpath c hc).1, hfind]

/-- The topmost filesystems are told if and only if the table is plain. -/
theorem resolved_iff :
  table.Resolved ↔ table.Plain
  := by
  constructor
  · intro hresolved
    have htold : ∀ path ∈ table.mountpoints, ∃ type,
        ProcMounts.filesystemType table.text path = some type := by
      intro path hpath
      rw [hresolved path hpath]
      exact exists_topmost hpath
    have hspace : ∀ path ∈ table.mountpoints, ∀ c ∈ path, Text.isSpace c = false := by
      intro path hpath
      obtain ⟨type, htype⟩ := htold path hpath
      exact isSpace_of_filesystemType htype
    have hplain : ∀ path ∈ table.mountpoints, ∀ c ∈ path, Text.isSpace c = false ∧ c ≠ '\\' := by
      intro path hpath c hc
      refine ⟨hspace path hpath c hc, ?_⟩
      rintro rfl
      refine backslash_notMem hspace ?_ path hpath hc
      intro path hpath
      obtain ⟨type, htype⟩ := htold path hpath
      exact exists_escape_of_filesystemType hlegible hspace htype
    constructor
    · exact hplain
    · intro path hpath
      rw [← filesystemType_of_plain hlegible hplain, hresolved path hpath]
  · intro hplain path hpath
    rw [filesystemType_of_plain hlegible hplain.mountpoints, hplain.types path hpath]

/-- In a plain table, something is told of the mountpoints only. -/
theorem filesystemType_isSome_iff (h : table.Plain) {path : List Char} :
  (∃ type, ProcMounts.filesystemType table.text path = some type) ↔ path ∈ table.mountpoints
  := by
  rw [← Option.isSome_iff_exists, filesystemType_of_plain hlegible h.mountpoints, Option.isSome_map,
    List.find?_isSome, mountpoints, List.mem_map]
  simp

end

/-- What is forbidden. -/
theorem isForbidden_iff {path : List Char} :
  Volumes.isForbidden path = true ↔ path = ['/'] ∨ path = "/boot".toList ∨ "/boot/".toList <+: path
  := by
  rw [Volumes.isForbidden, Volumes.forbiddenPrefixes]
  split
  · simp [*]
  · rename_i hroot
    simp only [List.any_cons, List.any_nil, Bool.or_false, Bool.or_eq_true, decide_eq_true_eq,
      List.isPrefixOf_iff_prefix, hroot, false_or]
    rfl

/-- What is registered is no forbidden path, a mountpoint to `os.path.ismount`, and in the table. -/
theorem register_iff {isMountpoint : List Char → Bool} {text : List Char}
    {params : VolumeRegisterParams} :
  (∃ info, Volumes.register isMountpoint text params = .ok info)
    ↔ Volumes.isForbidden (Volumes.mountpointOf params.mountpoint) = false
      ∧ isMountpoint (Volumes.mountpointOf params.mountpoint) = true
      ∧ ∃ type, ProcMounts.filesystemType text (Volumes.mountpointOf params.mountpoint) = some type
  := by
  rw [Volumes.register]
  cases Volumes.isForbidden (Volumes.mountpointOf params.mountpoint) with
  | true => simp
  | false =>
      cases isMountpoint (Volumes.mountpointOf params.mountpoint) with
      | false => simp
      | true =>
          cases ProcMounts.filesystemType text (Volumes.mountpointOf params.mountpoint) with
          | none => simp
          | some type => simp

/-- A call succeeds when the params validate and the handler does. -/
theorem call_iff {invalid : String → String} {isMountpoint : List Char → Bool} {text : List Char}
    {request : String} :
  (∃ info, Volumes.call invalid isMountpoint text request = .ok info)
    ↔ (1 ≤ request.length ∧ request.length ≤ 255)
      ∧ Volumes.isForbidden (Volumes.mountpointOf request) = false
      ∧ isMountpoint (Volumes.mountpointOf request) = true
      ∧ ∃ type, ProcMounts.filesystemType text (Volumes.mountpointOf request) = some type
  := by
  rw [Volumes.call, VolumeRegisterParams.validate]
  by_cases hlength : 1 ≤ request.length ∧ request.length ≤ 255
  · rw [dif_pos hlength, and_iff_right hlength, ← @register_iff _ _ ⟨request, hlength.1, hlength.2⟩]
    simp only
    cases Volumes.register isMountpoint text ⟨request, hlength.1, hlength.2⟩ with
    | error e => simp [Except.mapError]
    | ok info => simp [Except.mapError]
  · rw [dif_neg hlength]
    simp [hlength]

/-- A mountpoint of a table is asked for as it is. -/
theorem mountpointOf_of_mem {table : MountTable} {path : List Char} (h : path ∈ table.mountpoints) :
  Volumes.mountpointOf (String.ofList path) = path
  := by
  obtain ⟨entry, -, rfl⟩ := List.mem_map.mp h
  have hhead := entry.mountpoint.2.1
  have hlast := entry.mountpoint.2.2
  rw [Volumes.mountpointOf, String.toList_ofList]
  by_cases hslash : entry.mountpoint.1.getLast? = some '/'
  · rw [hlast hslash]
    rfl
  · rw [Path.stripEnd_eq_self hslash, if_neg]
    intro hempty
    rw [hempty] at hhead
    cases hhead

/-- In a plain table, the mountpoints that may be registered are if and only if `os.path.ismount` sees
them and they are not too long. -/
theorem registers_iff (invalid : String → String) (isMountpoint : List Char → Bool) {table : MountTable}
    (hlegible : ∀ entry ∈ table, entry.Legible) (h : table.Plain) :
  table.Registers invalid isMountpoint
    ↔ ∀ path, table.Allowed path → isMountpoint path = true ∧ path.length ≤ 255
  := by
  have hforbidden : ∀ path, Volumes.isForbidden path = false
      ↔ path ≠ ['/'] ∧ path ≠ "/boot".toList ∧ ¬ "/boot/".toList <+: path := by
    intro path
    rw [Bool.eq_false_iff, ne_eq, isForbidden_iff, not_or, not_or]
  have hcall : ∀ request : String,
      (∃ info, Volumes.call invalid isMountpoint table.text request = .ok info)
        ↔ (1 ≤ request.length ∧ request.length ≤ 255)
          ∧ isMountpoint (Volumes.mountpointOf request) = true
          ∧ table.Allowed (Volumes.mountpointOf request) := by
    intro request
    rw [call_iff, filesystemType_isSome_iff hlegible h, hforbidden, Allowed]
    tauto
  constructor
  · intro hregisters path hallowed
    have hrequest := mountpointOf_of_mem hallowed.1
    have hiff := hregisters (String.ofList path) (.inl (by rw [hrequest, String.toList_ofList]))
    rw [hcall, hrequest] at hiff
    obtain ⟨hlength, hseen, -⟩ := hiff.mpr hallowed
    use hseen
    simpa using hlength.2
  · intro hseen request hrequest
    rw [hcall]
    constructor
    · rintro ⟨-, -, hallowed⟩
      exact hallowed
    · intro hallowed
      obtain ⟨hmount, hlength⟩ := hseen _ hallowed
      refine ⟨⟨?_, ?_⟩, hmount, hallowed⟩
      · -- the empty request asks for the root
        by_contra hempty
        have hnil : request = "" := by
          rw [← String.length_eq_zero_iff]
          omega
        apply hallowed.2.1
        rw [hnil]
        rfl
      · rcases hrequest with hself | hshort
        · rw [hself, String.length_toList] at hlength
          exact hlength
        · exact hshort

/-- In a table whose lines can be read, the topmost filesystems are told and the mountpoints that may be
registered are, if and only if the table is plain, and `os.path.ismount` sees those mountpoints, which are not
too long. -/
theorem resolved_and_registers_iff (invalid : String → String) (isMountpoint : List Char → Bool)
    (table : MountTable) (hlegible : ∀ entry ∈ table, entry.Legible) :
  table.Resolved ∧ table.Registers invalid isMountpoint
    ↔ table.Plain ∧ ∀ path, table.Allowed path → isMountpoint path = true ∧ path.length ≤ 255
  := by
  rw [resolved_iff hlegible]
  exact and_congr_right fun hplain => registers_iff invalid isMountpoint hlegible hplain

/-- A disk whose name has a space. -/
def spacious : MountTable :=
  [{ device := "/dev/sdb1".toList
     mountpoint := ⟨"/mnt/my disk".toList, by decide⟩
     type := "xfs".toList
     options := "rw".toList }]

/-- Nothing is told of a mountpoint with a space in its name. -/
theorem not_resolved_spacious :
  ¬ (spacious.Resolved ∧ spacious.Registers id fun _ => true)
  := by
  rintro ⟨hresolved, -⟩
  have hnone := hresolved "/mnt/my disk".toList (by decide)
  revert hnone
  decide

/-- A disk whose name has none. -/
def pooled : MountTable :=
  [{ device := "/dev/sdb1".toList
     mountpoint := ⟨"/mnt/pool".toList, by decide⟩
     type := "xfs".toList
     options := "rw".toList }]

/-- What is mounted is told, and may be registered. -/
theorem resolved_and_registers_pooled :
  pooled.Resolved ∧ pooled.Registers id fun _ => true
  := by
  apply (resolved_and_registers_iff id (fun _ => true) pooled ?_).mpr
  · constructor
    · constructor
      · simp [mountpoints, pooled, Text.isSpace]
      · decide
    · intro path hallowed
      have hpath : path = "/mnt/pool".toList := List.mem_singleton.mp hallowed.1
      rw [hpath]
      decide
  · intro entry hentry
    cases List.mem_singleton.mp hentry
    constructor
    · simp [IsTableWord, Text.isSpace]
    · simp [IsTableWord, Text.isSpace]
    · decide

end MountTable
