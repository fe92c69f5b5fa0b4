import Mathlib.Data.List.DropRight
import NasOs.Library.Table
import NasOs.Uploads.Requests

/-!
# The metadata of an upload

A client sends keys and values in one header: a key, a space and the Base64 of the UTF-8 of its value, and
commas between these.  `_parse_metadata` trims each pair before it looks for the space.

Hence what was sent is what is read if and only if no key begins with whitespace, and none of an empty
value ends with it.  A header is read at all, without an exception, if and only if the values in it are
made of ASCII characters only.
-/

namespace Text

/-- Whitespace at the beginning is trimmed. -/
theorem strip_dropWhile (l : List Char) :
  strip (l.dropWhile isSpace) = strip l
  := by
  rw [strip, strip, List.dropWhile_idempotent]

/-- Spaces at the beginning are trimmed. -/
theorem strip_replicate_append (n : ℕ) (l : List Char) :
  strip (List.replicate n ' ' ++ l) = strip l
  := by
  induction n with
  | zero => rfl
  | succ n ih =>
      rw [List.replicate_succ, List.cons_append, ← ih]
      rfl

/-- A space at the end is trimmed. -/
theorem strip_append_space (l : List Char) :
  strip (l ++ [' ']) = strip l
  := by
  rw [strip, strip, List.dropWhile_append]
  split
  · rename_i h
    rw [List.isEmpty_iff.mp h]
    rfl
  · rw [List.reverse_append]
    rfl

/-- What is trimmed does not begin with whitespace. -/
theorem head?_strip {l : List Char} {c : Char} (h : c ∈ (strip l).head?) :
  isSpace c = false
  := by
  have hprefix : strip l <+: l.dropWhile isSpace := by
    rw [strip, ← List.reverse_suffix, List.reverse_reverse]
    apply List.dropWhile_suffix
  obtain ⟨rest, hrest⟩ := hprefix
  have hhead := List.head?_dropWhile_not isSpace l
  rw [← hrest, List.head?_append, Option.mem_def.mp h] at hhead
  exact hhead

/-- What is trimmed does not end with whitespace. -/
theorem getLast?_strip {l : List Char} {c : Char} (h : c ∈ (strip l).getLast?) :
  isSpace c = false
  := by
  rw [strip, List.getLast?_reverse] at h
  have hhead := List.head?_dropWhile_not isSpace (l.dropWhile isSpace).reverse
  rw [Option.mem_def.mp h] at hhead
  exact hhead

/-- There is no first separator where there is none. -/
theorem splitFirst_eq_none {α : Type*} [DecidableEq α] {sep : α} {l : List α} (h : sep ∉ l) :
  splitFirst sep l = none
  := by
  rw [Option.eq_none_iff_forall_ne_some]
  rintro ⟨a, b⟩ hsplit
  rw [eq_of_splitFirst hsplit] at h
  simp at h

end Text

/-- A key and its value. -/
structure MetadataPair where
  key : String
  value : String
  key_ne : key.toList ≠ []
  space_notMem : ' ' ∉ key.toList
  comma_notMem : ',' ∉ key.toList

/-- Keys and their values, in any order. -/
abbrev Metadata : Type :=
  Table MetadataPair.key

namespace Metadata

/-- The Base64 of the UTF-8 of a value. -/
def encodeValue (value : String) : List Char :=
  Base64.encode value.toByteArray.data.toList

/-- A pair as it is sent, after some spaces. -/
def encodePair (spaces : ℕ) (pair : MetadataPair) : List Char :=
  List.replicate spaces ' ' ++ pair.key.toList ++ ' ' :: encodeValue pair.value

/-- The header with some keys and values, and some spaces before each key. -/
def encode (spaces : String → ℕ) (metadata : Metadata) : String :=
  String.ofList ([','].intercalate (metadata.rows.map fun pair => encodePair (spaces pair.key) pair))

/-- What is read are some keys with their values. -/
def Reads (metadata : Metadata) (result : Except Exc (List (String × String))) : Prop :=
  ∃ out, result = .ok out ∧ ∀ key, out.lookup key = (metadata.find? key).map MetadataPair.value

end Metadata

/-- A pair keeps its key when it is trimmed: the key does not begin with whitespace, and does not end with
it if nothing comes after. -/
def MetadataPair.Kept (pair : MetadataPair) : Prop :=
  (∀ c ∈ pair.key.toList.head?, Text.isSpace c = false)
    ∧ (pair.value = "" → ∀ c ∈ pair.key.toList.getLast?, Text.isSpace c = false)

namespace UploadsApi

/-- The key and the encoded value in a piece of the header. -/
def splitPair (piece : List Char) : List Char × List Char :=
  (Text.splitFirst ' ' (Text.strip piece)).getD (Text.strip piece, [])

/-- The key and the value in a piece of the header, if it is not left out. -/
def readPair (piece : List Char) : Option (String × String) :=
  if Text.strip piece = [] then none
  else (metadataValue (splitPair piece).2).map fun value => (String.ofList (splitPair piece).1, value)

/-- The encoded value in a piece of the header is made of ASCII characters only. -/
def AsciiPair (piece : List Char) : Prop :=
  ∀ c ∈ (splitPair piece).2, c.toNat < 128

/-- A piece of nothing but whitespace has no encoded value. -/
theorem splitPair_of_strip {piece : List Char} (h : Text.strip piece = []) :
  splitPair piece = ([], [])
  := by
  rw [splitPair, h]
  rfl

/-- What is read of the pieces after some. -/
def readStep (out : List (String × String)) (piece : List Char) : Except Exc (List (String × String)) :=
  if (splitPair piece).2.any fun c => 128 ≤ c.toNat then
    throw (.other "string argument should contain only ASCII characters")
  else pure ((readPair piece).toList ++ out)

/-- The pieces are read one after the other. -/
theorem parseMetadata_eq (header : Option String) :
  parseMetadata header = ((header.getD "").toList.splitOn ',').foldlM readStep []
  := by
  rw [parseMetadata]
  congr 1
  funext out piece
  rw [readStep, readPair]
  by_cases hstrip : Text.strip piece = []
  · simp [hstrip, splitPair_of_strip hstrip]
  · simp only [hstrip, if_false]
    change (if (splitPair piece).2.any fun c => 128 ≤ c.toNat then _ else pure _) = _
    split
    · rfl
    · rw [splitPair]
      cases metadataValue _ with
      | none => rfl
      | some value => rfl

/-- The pieces are read as long as the encoded values are of ASCII. -/
theorem foldlM_readStep {pieces : List (List Char)} {before out : List (String × String)} :
  pieces.foldlM readStep before = .ok out
    ↔ (∀ piece ∈ pieces, AsciiPair piece) ∧ out = (pieces.filterMap readPair).reverse ++ before
  := by
  induction pieces generalizing before with
  | nil => simp [eq_comm, pure, Except.pure]
  | cons piece pieces ih =>
      rw [List.foldlM_cons, readStep]
      by_cases hascii : AsciiPair piece
      · rw [if_neg (by simpa [AsciiPair] using hascii)]
        change pieces.foldlM readStep _ = _ ↔ _
        rw [ih, List.forall_mem_cons, List.filterMap_cons]
        cases readPair piece with
        | none => simp [hascii]
        | some pair => simp [hascii]
      · rw [if_pos (by simpa [AsciiPair] using hascii), List.forall_mem_cons]
        constructor
        · rintro ⟨⟩
        · rintro ⟨⟨h, -⟩, -⟩
          contradiction

/-- What is read of a header, if nothing is raised. -/
theorem parseMetadata_eq_ok_iff {header : Option String} {out : List (String × String)} :
  parseMetadata header = .ok out
    ↔ (∀ piece ∈ (header.getD "").toList.splitOn ',', AsciiPair piece)
      ∧ out = (((header.getD "").toList.splitOn ',').filterMap readPair).reverse
  := by
  rw [parseMetadata_eq, foldlM_readStep, List.append_nil]

end UploadsApi

/-! ### What is sent -/

namespace Metadata

open UploadsApi

/-- The characters of an encoded value are of ASCII, neither whitespace nor commas. -/
theorem of_mem_encodeValue {c : Char} {value : String} (h : c ∈ encodeValue value) :
  c.toNat < 128 ∧ Text.isSpace c = false ∧ c ≠ ','
  := by
  have hall : ∀ d : Fin 64, (Base64.symbol d.1).toNat < 128 ∧ Text.isSpace (Base64.symbol d.1) = false
      ∧ Base64.symbol d.1 ≠ ',' := by
    decide +kernel
  rcases Base64.mem_encode h with rfl | ⟨d, hd, rfl⟩
  · decide
  · exact hall ⟨d, hd⟩

/-- An encoded value is decoded to the value. -/
theorem metadataValue_encodeValue (value : String) :
  metadataValue (encodeValue value) = some value
  := by
  rw [metadataValue, encodeValue, Base64.decode_encode, Option.bind_some, String.fromUTF8?]
  exact dif_pos value.isValidUTF8

/-- Only the empty value is encoded as no text. -/
theorem encodeValue_eq_nil_iff {value : String} :
  encodeValue value = [] ↔ value = ""
  := by
  constructor
  · intro h
    have hvalue := metadataValue_encodeValue value
    rw [h] at hvalue
    exact (Option.some.inj hvalue).symm
  · rintro rfl
    rfl

/-- Trimming leaves an encoded value at the end of a text as it is. -/
theorem strip_append_encodeValue {value : String} (hvalue : value ≠ "") {before : List Char}
    (hbefore : ∀ c ∈ before.head?, Text.isSpace c = false) :
  Text.strip (before ++ encodeValue value) = before ++ encodeValue value
  := by
  apply Text.strip_eq_self
  · intro c hc
    rw [List.head?_append] at hc
    cases hhead : before.head? with
    | some d =>
        rw [hhead] at hc
        cases hc
        exact hbefore c hhead
    | none =>
        rw [hhead, Option.none_or] at hc
        exact (of_mem_encodeValue (List.mem_of_mem_head? hc)).2.1
  · intro c hc
    rw [List.getLast?_append_of_ne_nil _ (encodeValue_eq_nil_iff.not.mpr hvalue)] at hc
    exact (of_mem_encodeValue (List.mem_of_mem_getLast? hc)).2.1

/-- Trimming a pair trims its key at the beginning, and takes the space away with the key if that is all
whitespace. -/
theorem strip_encodePair (spaces : ℕ) {pair : MetadataPair} (hvalue : pair.value ≠ "") :
  Text.strip (encodePair spaces pair)
    = if pair.key.toList.dropWhile Text.isSpace = [] then encodeValue pair.value
      else pair.key.toList.dropWhile Text.isSpace ++ ' ' :: encodeValue pair.value
  := by
  rw [encodePair, List.append_assoc, Text.strip_replicate_append, ← Text.strip_dropWhile,
    List.dropWhile_append]
  split
  · rename_i hempty
    rw [if_pos (List.isEmpty_iff.mp hempty)]
    change Text.strip ((encodeValue pair.value).dropWhile Text.isSpace) = _
    rw [Text.strip_dropWhile]
    apply @strip_append_encodeValue _ hvalue []
    simp
  · rename_i hempty
    rw [if_neg (fun h => hempty (List.isEmpty_iff.mpr h)), ← List.singleton_append, ← List.append_assoc]
    apply strip_append_encodeValue hvalue
    intro c hc
    rw [List.head?_append] at hc
    have hhead := List.head?_dropWhile_not Text.isSpace pair.key.toList
    cases hkey : (pair.key.toList.dropWhile Text.isSpace).head? with
    | none =>
        rw [List.head?_eq_none_iff] at hkey
        exact absurd (List.isEmpty_iff.mpr hkey) hempty
    | some d =>
        rw [hkey] at hc hhead
        cases hc
        exact hhead

/-- The key and the encoded value of a pair that is sent. -/
theorem splitPair_encodePair (spaces : ℕ) (pair : MetadataPair) :
  splitPair (encodePair spaces pair)
    = if pair.value = "" then (Text.strip pair.key.toList, [])
      else if pair.key.toList.dropWhile Text.isSpace = [] then (encodeValue pair.value, [])
      else (pair.key.toList.dropWhile Text.isSpace, encodeValue pair.value)
  := by
  have hspace := pair.space_notMem
  rw [splitPair]
  split
  · rename_i hvalue
    rw [encodePair, List.append_assoc, Text.strip_replicate_append, encodeValue_eq_nil_iff.mpr hvalue,
      Text.strip_append_space, Text.splitFirst_eq_none]
    · rfl
    · intro hmem
      exact hspace (Text.mem_of_mem_strip hmem)
  · rename_i hvalue
    rw [strip_encodePair spaces hvalue]
    split
    · rw [Text.splitFirst_eq_none]
      · rfl
      · intro hmem
        have hblank := (of_mem_encodeValue hmem).2.1
        revert hblank
        decide
    · rw [Text.splitFirst_append]
      · rfl
      · intro hmem
        exact hspace ((List.dropWhile_suffix _).subset hmem)

/-- The pieces of the header are the pairs, unless there is none. -/
theorem splitOn_encode (spaces : String → ℕ) {metadata : Metadata} (h : metadata.rows ≠ []) :
  (encode spaces metadata).toList.splitOn ','
    = metadata.rows.map fun pair => encodePair (spaces pair.key) pair
  := by
  have hcomma : ∀ pair ∈ metadata.rows, (encodePair (spaces pair.key) pair).splitOn ','
      = [encodePair (spaces pair.key) pair] := by
    intro pair _
    apply List.splitOn_eq_singleton
    rw [encodePair, List.mem_append, List.mem_append, List.mem_cons]
    rintro ((hmem | hmem) | hmem | hmem)
    · exact absurd (List.eq_of_mem_replicate hmem) (by decide)
    · exact pair.comma_notMem hmem
    · exact absurd hmem (by decide)
    · exact (of_mem_encodeValue hmem).2.2 rfl
  rw [encode, String.toList_ofList, Text.splitOn_intercalate, List.flatMap_map,
    List.flatMap_congr hcomma, List.map_eq_flatMap]
  rwa [ne_eq, List.map_eq_nil_iff]

/-- A pair that is kept is read. -/
theorem readPair_encodePair (spaces : ℕ) {pair : MetadataPair} (h : pair.Kept) :
  readPair (encodePair spaces pair) = some (pair.key, pair.value)
  := by
  obtain ⟨hhead, hlast⟩ := h
  have hdrop : pair.key.toList.dropWhile Text.isSpace = pair.key.toList := by
    cases hkey : pair.key.toList with
    | nil => rfl
    | cons c rest =>
        rw [hkey] at hhead
        rw [List.dropWhile_cons_of_neg]
        simp [hhead c rfl]
  have hsplit : splitPair (encodePair spaces pair) = (pair.key.toList, encodeValue pair.value) := by
    rw [splitPair_encodePair, hdrop, if_neg pair.key_ne]
    split
    · rename_i hvalue
      rw [Text.strip_eq_self hhead (hlast hvalue), encodeValue_eq_nil_iff.mpr hvalue]
    · rfl
  have hstrip : Text.strip (encodePair spaces pair) ≠ [] := by
    intro hempty
    rw [splitPair_of_strip hempty] at hsplit
    exact pair.key_ne (Prod.ext_iff.mp hsplit).1.symm
  rw [readPair, if_neg hstrip, hsplit, metadataValue_encodeValue, Option.map_some, String.ofList_toList]

/-- What is read of a pair that is sent has a key that would be kept. -/
theorem of_readPair_encodePair {spaces : ℕ} {pair : MetadataPair} {key value : String}
    (h : readPair (encodePair spaces pair) = some (key, value)) :
  (∀ c ∈ key.toList.head?, Text.isSpace c = false)
    ∧ (value = "" → ∀ c ∈ key.toList.getLast?, Text.isSpace c = false)
  := by
  rw [readPair] at h
  split at h
  · cases h
  · obtain ⟨read, hread, heq⟩ := Option.map_eq_some_iff.mp h
    obtain ⟨rfl, rfl⟩ := Prod.ext_iff.mp heq
    rw [splitPair_encodePair] at hread ⊢
    rw [String.toList_ofList]
    split at hread
    · rename_i hvalue
      rw [if_pos hvalue]
      exact ⟨fun c hc => Text.head?_strip hc, fun _ c hc => Text.getLast?_strip hc⟩
    · rename_i hvalue
      rw [if_neg hvalue]
      split at hread
      · rename_i hkey
        rw [if_pos hkey]
        constructor
        · intro c hc
          exact (of_mem_encodeValue (List.mem_of_mem_head? hc)).2.1
        · intro _ c hc
          exact (of_mem_encodeValue (List.mem_of_mem_getLast? hc)).2.1
      · rename_i hkey
        rw [if_neg hkey]
        rw [metadataValue_encodeValue] at hread
        cases hread
        constructor
        · intro c hc
          have hhead := List.head?_dropWhile_not Text.isSpace pair.key.toList
          rw [Option.mem_def.mp hc] at hhead
          exact hhead
        · intro hempty
          exact absurd hempty hvalue

/-- A key has the value of its pair, in any order of the pairs. -/
theorem lookup_reverse_rows (metadata : Metadata) (key : String) :
  (metadata.rows.map fun pair => (pair.key, pair.value)).reverse.lookup key
    = (metadata.find? key).map MetadataPair.value
  := by
  cases hfind : metadata.find? key with
  | none =>
      rw [Option.map_none, List.lookup_eq_none_iff]
      intro entry hentry
      obtain ⟨pair, hpair, rfl⟩ := List.mem_map.mp (List.mem_reverse.mp hentry)
      have hne := Table.find?_eq_none_iff.mp hfind pair hpair
      rw [bne_iff_ne]
      exact hne.symm
  | some pair =>
      obtain ⟨hpair, hkey⟩ := Table.find?_eq_some_iff.mp hfind
      rw [Option.map_some]
      cases hlookup : (metadata.rows.map fun pair => (pair.key, pair.value)).reverse.lookup key with
      | none =>
          have hne := List.lookup_eq_none_iff.mp hlookup (pair.key, pair.value)
            (List.mem_reverse.mpr (List.mem_map_of_mem hpair))
          simp [hkey] at hne
      | some value =>
          obtain ⟨before, after, hsplit, -⟩ := List.lookup_eq_some_iff.mp hlookup
          have hmem : (key, value) ∈ (metadata.rows.map fun pair => (pair.key, pair.value)).reverse := by
            rw [hsplit]
            exact List.mem_append_right _ List.mem_cons_self
          obtain ⟨other, hother, heq⟩ := List.mem_map.mp (List.mem_reverse.mp hmem)
          obtain ⟨hkey', rfl⟩ := Prod.ext_iff.mp heq
          rw [List.inj_on_of_nodup_map metadata.nodup hother hpair (hkey'.trans hkey.symm)]

/-- The encoded values of pairs that are sent are of ASCII. -/
theorem asciiPair_encodePair (spaces : ℕ) (pair : MetadataPair) :
  AsciiPair (encodePair spaces pair)
  := by
  intro c hc
  rw [splitPair_encodePair] at hc
  split at hc
  · cases hc
  · split at hc
    · cases hc
    · exact (of_mem_encodeValue hc).1

/-- A header that is sent is read without an exception, one pair after the other. -/
theorem parseMetadata_encode (metadata : Metadata) (spaces : String → ℕ) :
  parseMetadata (some (encode spaces metadata))
    = .ok (metadata.rows.filterMap fun pair => readPair (encodePair (spaces pair.key) pair)).reverse
  := by
  rw [parseMetadata_eq_ok_iff, Option.getD_some]
  by_cases hrows : metadata.rows = []
  · rw [encode, hrows]
    constructor
    · intro piece hpiece c hc
      rw [List.mem_singleton.mp hpiece] at hc
      cases hc
    · rfl
  · rw [splitOn_encode spaces hrows, List.filterMap_map]
    constructor
    · intro piece hpiece
      obtain ⟨pair, -, rfl⟩ := List.mem_map.mp hpiece
      apply asciiPair_encodePair
    · rfl

/-- What was sent is what is read if and only if no key begins with whitespace, and none of an empty value
ends with it. -/
theorem reads_iff (metadata : Metadata) (spaces : String → ℕ) :
  metadata.Reads (parseMetadata (some (encode spaces metadata))) ↔ ∀ pair ∈ metadata.rows, pair.Kept
  := by
  rw [parseMetadata_encode]
  constructor
  · rintro ⟨_, ⟨⟩, hreads⟩ pair hpair
    have hlookup := hreads pair.key
    rw [Table.find?_eq_some_iff.mpr ⟨hpair, rfl⟩, Option.map_some] at hlookup
    obtain ⟨before, after, hsplit, -⟩ := List.lookup_eq_some_iff.mp hlookup
    have hmem : (pair.key, pair.value) ∈ (metadata.rows.filterMap fun pair =>
        readPair (encodePair (spaces pair.key) pair)).reverse := by
      rw [hsplit]
      exact List.mem_append_right _ List.mem_cons_self
    obtain ⟨other, -, hread⟩ := List.mem_filterMap.mp (List.mem_reverse.mp hmem)
    exact of_readPair_encodePair hread
  · intro hkept
    refine ⟨_, rfl, ?_⟩
    have hread : (metadata.rows.filterMap fun pair => readPair (encodePair (spaces pair.key) pair))
        = metadata.rows.map fun pair => (pair.key, pair.value) := by
      rw [← List.filterMap_eq_map]
      apply List.filterMap_congr
      intro pair hpair
      exact readPair_encodePair _ (hkept pair hpair)
    rw [hread]
    exact lookup_reverse_rows metadata

/-- What was sent is what is read if and only if no key begins with whitespace, and none of an empty value
ends with it; and a header is read at all if and only if the values in it are of ASCII. -/
theorem parseMetadata_iff (metadata : Metadata) (spaces : String → ℕ) (header : Option String) :
  (metadata.Reads (parseMetadata (some (encode spaces metadata)))
      ↔ ∀ pair ∈ metadata.rows, pair.Kept)
    ∧ ((∃ out, parseMetadata header = .ok out)
      ↔ ∀ piece ∈ (header.getD "").toList.splitOn ',', AsciiPair piece)
  := by
  constructor
  · exact reads_iff metadata spaces
  · constructor
    · rintro ⟨out, hout⟩
      exact (parseMetadata_eq_ok_iff.mp hout).1
    · intro hascii
      exact ⟨_, parseMetadata_eq_ok_iff.mpr ⟨hascii, rfl⟩⟩

/-- A header with a value that is not of ASCII raises. -/
theorem not_parseMetadata_latin :
  ¬ ∃ out, parseMetadata (some "filename é") = .ok out
  := by
  have herror : parseMetadata (some "filename é")
      = .error (.other "string argument should contain only ASCII characters") := by
    rfl
  rw [herror]
  rintro ⟨out, ⟨⟩⟩

end Metadata
