import NasOs.Acl.Commands

/-!
# The content of a file

`GET /files/content` serves a file, or the range of it that a `Range` header asks for.  The header is
split by hand into a start and an end, which are taken as they are: a range that is not within the file
is announced in full and served as far as the file goes, and a suffix `bytes=-k` is served as the range
from 0 to `k`.

What the file worker tells of the file, the header of the response and the bytes of the file can each
fail on their way; the last of them only once the response has begun, which then is cut off.

If all three get through, a range is served as it should be if and only if it has a start, or neither a
start nor an end, and is within the file (`content_iff`).
-/

/-! ### Reading a range -/

/-- `DOWNLOAD_FRAME_SIZE`. -/
def downloadFrameSize : ℕ :=
  1024 * 1024

/-- The loop of `read_range`, with the bytes that come next in the file. -/
def readFrames (remaining : ℕ) (rest : List UInt8) : List (List UInt8) :=
  if remaining = 0 ∨ rest = [] then []
  else
    rest.take (min downloadFrameSize remaining)
      :: readFrames (remaining - (rest.take (min downloadFrameSize remaining)).length)
        (rest.drop (rest.take (min downloadFrameSize remaining)).length)
termination_by remaining
decreasing_by
  rename_i h
  obtain ⟨hremaining, hrest⟩ := not_or.mp h
  have hlength := List.length_pos_of_ne_nil hrest
  simp only [List.length_take, downloadFrameSize]
  omega

/-- `read_range`; a file has no bytes before its first. -/
def readRange (bytes : List UInt8) (offset : ℤ) (length : Option ℤ) : Except Exc (List (List UInt8)) :=
  if offset < 0 then .error (.other "[Errno 22] Invalid argument")
  else
    .ok (readFrames (length.getD (bytes.length - offset)).toNat (bytes.drop offset.toNat))

/-- The frames of a range are its bytes, as far as there are any. -/
theorem flatten_readFrames (remaining : ℕ) (rest : List UInt8) :
  (readFrames remaining rest).flatten = rest.take remaining
  := by
  fun_induction readFrames remaining rest with
  | case1 remaining rest h =>
      rcases h with rfl | rfl
      · rw [List.take_zero]
        rfl
      · rw [List.take_nil]
        rfl
  | case2 remaining rest h ih =>
      rw [List.flatten_cons, ih, List.length_take]
      have hsplit : remaining
          = min (min downloadFrameSize remaining) rest.length
            + (remaining - min (min downloadFrameSize remaining) rest.length) := by
        omega
      conv =>
        rhs
        rw [hsplit, List.take_add]
      congr 1
      rw [List.take_eq_take_iff]
      omega

/-! ### The request -/

/-- What `files.properties` tells of a file to be served. -/
structure FileProperties where
  name : String
  size : ℕ

/-- What a request for the content of a file finds. -/
structure ContentContext where
  guessType : String → Option String
  /-- The texts that can be sent in the header of a response. -/
  encodes : String → Bool
  /-- What is told of the file. -/
  properties : Except Exc FileProperties
  /-- The frames that are passed on of a range, up to its end or to where reading or sending breaks
  off. -/
  frames : ℤ → ℤ → List (List UInt8)

/-- What is answered to the request. -/
structure ContentResponse where
  statusCode : ℕ
  mediaType : String
  headers : List (String × String)
  body : List UInt8

/-- The texts of the start and the end that a `Range` header asks for, if it counts in bytes. -/
def rangeParts (header : String) : Option (List Char × List Char) :=
  if "bytes=".toList <+: header.toList then
    let spec := header.toList.drop "bytes=".toList.length
    some ((Text.splitFirst '-' spec).getD (spec, []))
  else none

/-- A bound of a range, or its default where the text is empty. -/
def rangeBound (text : List Char) (default : ℤ) : Except Exc ℤ :=
  if text = [] then .ok default
  else
    match Text.int text with
    | some n => .ok n
    | none => .error (.other "invalid literal for int()")

/-- The name of the file as the header has it. -/
def contentDisposition (disposition name : String) : String :=
  disposition ++ "; filename=\"" ++ name ++ "\""

/-- The `StreamingResponse` with the bytes of a range. -/
def streamingResponse (ctx : ContentContext) (disposition name : String) (statusCode : ℕ)
    (offset length : ℤ) (extraHeaders : List (String × String)) : Except Exc ContentResponse :=
  if ctx.encodes (contentDisposition disposition name) then
    .ok
      { statusCode := statusCode
        mediaType := (ctx.guessType name).getD "application/octet-stream"
        headers := [("Content-Length", toString length),
          ("Content-Disposition", contentDisposition disposition name),
          ("Accept-Ranges", "bytes")] ++ extraHeaders
        body := (ctx.frames offset length).flatten }
  else .error (.other "'latin-1' codec can't encode characters")

/-- `Content-Range`. -/
def contentRange (start stop : ℤ) (total : ℕ) : String :=
  "bytes " ++ toString start ++ "-" ++ toString stop ++ "/" ++ toString total

/-- `content`. -/
def content (ctx : ContentContext) (disposition : String) (rangeHeader : Option String) :
    Except Exc ContentResponse := do
  let props ← ctx.properties
  let total := props.size
  match rangeHeader.bind rangeParts with
  | none => streamingResponse ctx disposition props.name 200 0 total []
  | some (startStr, endStr) =>
      let start ← rangeBound startStr 0
      let stop ← rangeBound endStr (total - 1)
      streamingResponse ctx disposition props.name 206 start (stop - start + 1)
        [("Content-Range", contentRange start stop total)]

/-! ### What the header asks for -/

/-- The header asks for the last bytes of the file, `k` of them. -/
def AsksForLast (rangeHeader : Option String) (k : ℕ) : Prop :=
  ∃ text, rangeHeader.bind rangeParts = some ([], text) ∧ text ≠ [] ∧ Text.int text = some (k : ℤ)

/-- A bound of the range is given, but is no number. -/
def NoNumber (rangeHeader : Option String) : Prop :=
  ∃ startStr endStr, rangeHeader.bind rangeParts = some (startStr, endStr) ∧
    ∃ text ∈ [startStr, endStr], text ≠ [] ∧ Text.int text = none

/-- The whole file is served, or the range from `start` to `stop`, which lies in the file and is announced
as it is, or a range with a bound that is no number is refused. -/
inductive ContentServed (bytes : List UInt8) (rangeHeader : Option String) :
    Except Exc ContentResponse → Prop where
  | whole (response : ContentResponse) (status : response.statusCode = 200)
      (body_eq : response.body = bytes)
      (length_eq : response.headers.lookup "Content-Length" = some (toString response.body.length)) :
      ContentServed bytes rangeHeader (.ok response)
  | refused (e : Exc) (noNumber : NoNumber rangeHeader) : ContentServed bytes rangeHeader (.error e)
  | range (response : ContentResponse) (start stop : ℕ) (status : response.statusCode = 206)
      (start_le : start ≤ stop) (stop_lt : stop < bytes.length)
      (body_eq : response.body = (bytes.drop start).take (stop - start + 1))
      (length_eq : response.headers.lookup "Content-Length" = some (toString response.body.length))
      (range_eq : response.headers.lookup "Content-Range"
        = some ("bytes " ++ toString start ++ "-" ++ toString stop ++ "/" ++ toString bytes.length))
      (last : ∀ k, AsksForLast rangeHeader k →
        start = bytes.length - min k bytes.length ∧ stop = bytes.length - 1) :
      ContentServed bytes rangeHeader (.ok response)

/-- The range has a start or no bounds at all, and lies in the file. -/
structure RangeWithin (total : ℕ) (startStr endStr : List Char) (start stop : ℤ) : Prop where
  bounded : startStr ≠ [] ∨ endStr = []
  start_le : start ≤ stop
  stop_lt : stop < total

/-- The worker tells the size of the file, and its name can be sent in the header. -/
def ContentContext.Ready (ctx : ContentContext) (bytes : List UInt8) (disposition : String) : Prop :=
  ∃ name, ctx.properties = .ok ⟨name, bytes.length⟩ ∧
    ctx.encodes (contentDisposition disposition name) = true

/-- The bytes of a range are passed on, as far as there are any. -/
def ContentContext.Delivers (ctx : ContentContext) (bytes : List UInt8) (offset length : ℤ) : Prop :=
  (ctx.frames offset length).flatten = (bytes.drop offset.toNat).take length.toNat

/-- If the header asks for a range, it is one within the file, and what is asked for gets through. -/
inductive ContentContext.Serves (ctx : ContentContext) (bytes : List UInt8) (disposition : String)
    (rangeHeader : Option String) : Prop where
  | whole (noRange : rangeHeader.bind rangeParts = none) (ready : ctx.Ready bytes disposition)
      (delivers : ctx.Delivers bytes 0 bytes.length)
  | range (startStr endStr : List Char) (start stop : ℤ)
      (parts : rangeHeader.bind rangeParts = some (startStr, endStr))
      (start_eq : rangeBound startStr 0 = .ok start)
      (stop_eq : rangeBound endStr (bytes.length - 1) = .ok stop)
      (within : RangeWithin bytes.length startStr endStr start stop)
      (ready : ctx.Ready bytes disposition)
      (delivers : ctx.Delivers bytes start (stop - start + 1))
  | noNumber (noNumber : NoNumber rangeHeader)

/-- There is no minus before a range. -/
theorem not_mem_of_rangeParts {header : String} {startStr endStr : List Char}
    (h : rangeParts header = some (startStr, endStr)) :
  '-' ∉ startStr
  := by
  simp only [rangeParts] at h
  split at h
  · cases hsplit : Text.splitFirst '-' (header.toList.drop "bytes=".toList.length) with
    | none =>
        rw [hsplit, Option.getD_none] at h
        cases h
        intro hmem
        obtain ⟨before, after, heq, hbefore⟩ := List.eq_append_cons_of_mem hmem
        rw [heq, Text.splitFirst_append hbefore] at hsplit
        cases hsplit
    | some parts =>
        rw [hsplit, Option.getD_some] at h
        cases h
        apply Text.not_mem_of_splitFirst hsplit
  · cases h

/-- A number without a minus is not negative. -/
theorem int_nonneg {text : List Char} (htext : '-' ∉ text) {n : ℤ} (h : Text.int text = some n) :
  0 ≤ n
  := by
  rw [Text.int] at h
  split at h
  · rename_i hstrip
    exfalso
    apply htext
    apply Text.mem_of_mem_strip
    rw [hstrip]
    apply List.mem_cons_self
  · obtain ⟨m, -, rfl⟩ := Option.map_eq_some_iff.mp h
    apply Int.natCast_nonneg
  · obtain ⟨m, -, rfl⟩ := Option.map_eq_some_iff.mp h
    apply Int.natCast_nonneg

/-- The start of a range is not negative. -/
theorem start_nonneg {header : String} {startStr endStr : List Char} {start : ℤ}
    (h : rangeParts header = some (startStr, endStr)) (hstart : rangeBound startStr 0 = .ok start) :
  0 ≤ start
  := by
  rw [rangeBound] at hstart
  split at hstart
  · cases hstart
    rfl
  · split at hstart
    · rename_i n hint
      cases hstart
      apply int_nonneg (not_mem_of_rangeParts h) hint
    · cases hstart

/-- A bound is a number unless it is given and is none. -/
theorem rangeBound_eq_error_iff (text : List Char) (default : ℤ) :
  (∃ e, rangeBound text default = .error e) ↔ text ≠ [] ∧ Text.int text = none
  := by
  by_cases htext : text = []
  · rw [rangeBound, if_pos htext]
    constructor
    · rintro ⟨e, h⟩
      cases h
    · rintro ⟨hne, -⟩
      contradiction
  · rw [rangeBound, if_neg htext]
    cases hint : Text.int text with
    | none => simp [htext]
    | some n => simp

/-- The numerals of a natural number and an integer are the same only if the numbers are. -/
theorem eq_of_toString_eq {n : ℕ} {z : ℤ} (h : toString z = toString n) :
  z = n
  := by
  have hz := decimal_toString z
  have hn := decimal_toString (n : ℤ)
  rw [if_pos (Int.natCast_nonneg n)] at hn
  have htext : toString (n : ℤ) = toString n := rfl
  rw [h, ← htext, hn] at hz
  split at hz
  · rename_i hnonneg
    rw [Option.some_inj, Int.toNat_natCast] at hz
    omega
  · cases hz

/-- A range is announced as it is only if its bounds and the size of the file are these. -/
theorem contentRange_inj {start stop : ℤ} {total start' stop' total' : ℕ} (hstart : 0 ≤ start)
    (h : contentRange start stop total
      = "bytes " ++ toString start' ++ "-" ++ toString stop' ++ "/" ++ toString total') :
  start = start' ∧ stop = stop' ∧ total = total'
  := by
  obtain ⟨start, rfl⟩ := Int.eq_ofNat_of_zero_le hstart
  have htext := congrArg String.toList h
  simp only [contentRange, String.toList_append, List.append_assoc] at htext
  have hbounds : start'.repr.toList ++ '-' :: (stop'.repr.toList ++ '/' :: total'.repr.toList)
      = start.repr.toList ++ '-' :: ((toString stop).toList ++ '/' :: total.repr.toList) :=
    (List.append_cancel_left htext).symm
  have hminus : '-' ∉ stop'.repr.toList ++ '/' :: total'.repr.toList := by
    rw [List.mem_append, List.mem_cons]
    rintro (h | h | h)
    · apply not_mem_repr rfl _ h
    · cases h
    · apply not_mem_repr rfl _ h
  obtain ⟨hfirst, -, hrest⟩ :=
    (List.append_cons_inj_of_notMem (not_mem_repr rfl _) hminus).mp hbounds
  obtain ⟨hlast, -, htotal⟩ :=
    (List.append_cons_inj_of_notMem (not_mem_repr rfl _) (not_mem_repr rfl _)).mp hrest
  have eq_of_repr_eq : ∀ {z : ℤ} {n : ℕ}, n.repr.toList = (toString z).toList → z = n := by
    intro z n htext
    apply eq_of_toString_eq (String.toList_inj.mp htext.symm)
  refine ⟨eq_of_repr_eq hfirst, eq_of_repr_eq hlast, ?_⟩
  have htotal' : (total : ℤ) = total' := eq_of_repr_eq htotal
  omega

/-- The whole file is served if and only if what is told of it has its size and its bytes get through. -/
theorem contentServed_whole_iff (ctx : ContentContext) {bytes : List UInt8} {disposition : String}
    {rangeHeader : Option String} (hrange : rangeHeader.bind rangeParts = none) :
  ContentServed bytes rangeHeader (content ctx disposition rangeHeader)
    ↔ ctx.Ready bytes disposition ∧ ctx.Delivers bytes 0 bytes.length
  := by
  have hnoNumber : ¬ NoNumber rangeHeader := by
    rintro ⟨startStr, endStr, hparts, -⟩
    cases hrange.symm.trans hparts
  have hwhole : (bytes.drop (0 : ℤ).toNat).take (bytes.length : ℤ).toNat = bytes := by
    simp
  simp only [content, hrange]
  cases hproperties : ctx.properties with
  | error e =>
      constructor
      · intro h
        cases h with
        | refused _ noNumber => contradiction
      · rintro ⟨⟨name, h, -⟩, -⟩
        cases hproperties.symm.trans h
  | ok props =>
      obtain ⟨name, size⟩ := props
      change ContentServed _ _ (streamingResponse _ _ _ _ _ _ _) ↔ _
      rw [streamingResponse]
      constructor
      · intro h
        split at h
        · rename_i hencodes
          cases h with
          | whole _ _ body_eq length_eq =>
              have hsize : (size : ℤ) = _ := eq_of_toString_eq (Option.some.inj length_eq)
              obtain rfl : size = bytes.length := by
                rw [← body_eq]
                exact_mod_cast hsize
              refine ⟨⟨name, hproperties, hencodes⟩, ?_⟩
              rw [ContentContext.Delivers, hwhole]
              apply body_eq
          | range _ _ _ status => cases status
        · cases h with
          | refused _ noNumber => contradiction
      · rintro ⟨⟨_, h, hencodes⟩, hdelivers⟩
        cases hproperties.symm.trans h
        rw [ContentContext.Delivers, hwhole] at hdelivers
        rw [if_pos hencodes]
        apply ContentServed.whole _ rfl hdelivers
        change _ = some (toString (ctx.frames 0 bytes.length).flatten.length)
        rw [hdelivers]
        rfl

/-- A response with a range is as it should be if and only if the range lies in the file and has a start, or
no bounds at all, its size is that of the file and its body is the range. -/
theorem contentServed_partial_iff {bytes body : List UInt8} {rangeHeader : Option String}
    {startStr endStr : List Char} {start stop : ℤ} {size : ℕ} {mediaType disposition : String}
    (hparts : rangeHeader.bind rangeParts = some (startStr, endStr))
    (hstart : rangeBound startStr 0 = .ok start) (hstop : rangeBound endStr (size - 1) = .ok stop)
    (hnonneg : 0 ≤ start) :
  ContentServed bytes rangeHeader
      (.ok
        { statusCode := 206
          mediaType := mediaType
          headers := [("Content-Length", toString (stop - start + 1)),
            ("Content-Disposition", disposition), ("Accept-Ranges", "bytes")]
            ++ [("Content-Range", contentRange start stop size)]
          body := body })
    ↔ size = bytes.length ∧ RangeWithin bytes.length startStr endStr start stop ∧
      body = (bytes.drop start.toNat).take (stop - start + 1).toNat
  := by
  constructor
  · intro h
    cases h with
    | whole _ status => cases status
    | range _ start' stop' _ start_le stop_lt body_eq length_eq range_eq last =>
        obtain ⟨rfl, rfl, rfl⟩ := contentRange_inj hnonneg (Option.some.inj range_eq)
        have hcount : ((stop' : ℤ) - start' + 1).toNat = stop' - start' + 1 := by
          omega
        refine ⟨rfl, ⟨?_, by omega, by omega⟩, ?_⟩
        · by_contra hsuffix
          obtain ⟨hnil, hne⟩ := not_or.mp hsuffix
          obtain rfl := Classical.not_not.mp hnil
          -- a suffix is served from the beginning, one byte more than it should have
          have hzero : (0 : ℤ) = start' := Except.ok.inj hstart
          have hint : Text.int endStr = some (stop' : ℤ) := by
            rw [rangeBound, if_neg hne] at hstop
            split at hstop
            · rename_i n hint
              cases hstop
              apply hint
            · cases hstop
          obtain ⟨hfirst, hlast⟩ := last stop' ⟨endStr, hparts, hne, hint⟩
          omega
        · rw [hcount, Int.toNat_natCast]
          apply body_eq
  · rintro ⟨rfl, ⟨hbounded, hle, hlt⟩, rfl⟩
    obtain ⟨start, rfl⟩ := Int.eq_ofNat_of_zero_le hnonneg
    obtain ⟨stop, rfl⟩ := Int.eq_ofNat_of_zero_le (Int.le_trans hnonneg hle)
    have hcount : ((stop : ℤ) - start + 1).toNat = stop - start + 1 := by
      omega
    apply ContentServed.range _ start stop rfl (by omega) (by omega)
    · simp only [Int.toNat_natCast, hcount]
    · have hlength : ((bytes.drop (start : ℤ).toNat).take
          ((stop : ℤ) - start + 1).toNat).length = stop - start + 1 := by
        rw [List.length_take, List.length_drop]
        omega
      have hcast : (stop : ℤ) - start + 1 = ((stop - start + 1 : ℕ) : ℤ) := by
        omega
      rw [hlength, hcast]
      rfl
    · rfl
    · rintro k ⟨text, hparts', hne, -⟩
      cases hparts.symm.trans hparts'
      rcases hbounded with hbounded | hbounded
      · contradiction
      · contradiction

/-- If the bounds of a range are numbers, the response is as it should be if and only if the range lies in
the file and has a start, or no bounds at all, and what is asked for gets through. -/
theorem contentServed_range_iff (ctx : ContentContext) {bytes : List UInt8} {disposition : String}
    {rangeHeader : Option String} {startStr endStr : List Char} {start : ℤ}
    (hparts : rangeHeader.bind rangeParts = some (startStr, endStr))
    (hnoNumber : ¬ NoNumber rangeHeader) (hstart : rangeBound startStr 0 = .ok start) :
  ContentServed bytes rangeHeader (content ctx disposition rangeHeader)
    ↔ ∃ stop, rangeBound endStr (bytes.length - 1) = .ok stop ∧
      RangeWithin bytes.length startStr endStr start stop ∧ ctx.Ready bytes disposition ∧
      ctx.Delivers bytes start (stop - start + 1)
  := by
  obtain ⟨header, rfl, hheader⟩ := Option.bind_eq_some_iff.mp hparts
  have hnonneg := start_nonneg hheader hstart
  simp only [content, hparts]
  cases hproperties : ctx.properties with
  | error e =>
      constructor
      · intro h
        cases h with
        | refused _ noNumber => contradiction
      · rintro ⟨_, _, _, ⟨name, h, -⟩, -⟩
        cases hproperties.symm.trans h
  | ok props =>
      obtain ⟨name, size⟩ := props
      cases hstop : rangeBound endStr (size - 1) with
      | error e =>
          have hbad := (rangeBound_eq_error_iff _ _).mp ⟨e, hstop⟩
          exfalso
          apply hnoNumber
          exact ⟨startStr, endStr, hparts, endStr, by simp, hbad⟩
      | ok stop =>
          simp only [hstart]
          change ContentServed _ _ (Except.bind (rangeBound endStr (size - 1)) _) ↔ _
          rw [hstop]
          change ContentServed _ _ (streamingResponse _ _ _ _ _ _ _) ↔ _
          rw [streamingResponse]
          constructor
          · intro h
            split at h
            · rename_i hencodes
              obtain ⟨rfl, hwithin, hbody⟩ :=
                (contentServed_partial_iff hparts hstart hstop hnonneg).mp h
              exact ⟨stop, hstop, hwithin, ⟨name, hproperties, hencodes⟩, hbody⟩
            · cases h with
              | refused _ noNumber => contradiction
          · rintro ⟨stop', hstop', hwithin, ⟨_, h, hencodes⟩, hdelivers⟩
            cases hproperties.symm.trans h
            cases hstop.symm.trans hstop'
            rw [if_pos hencodes, contentServed_partial_iff hparts hstart hstop hnonneg]
            exact ⟨rfl, hwithin, hdelivers⟩

/-- A range with a bound that is no number is refused. -/
theorem contentServed_of_noNumber (ctx : ContentContext) (bytes : List UInt8) (disposition : String)
    {rangeHeader : Option String} (h : NoNumber rangeHeader) :
  ContentServed bytes rangeHeader (content ctx disposition rangeHeader)
  := by
  obtain ⟨startStr, endStr, hparts, text, htext, hbad⟩ := id h
  suffices hraised : ∃ e, content ctx disposition rangeHeader = .error e by
    obtain ⟨e, he⟩ := hraised
    rw [he]
    apply ContentServed.refused e h
  simp only [content, hparts]
  cases ctx.properties with
  | error e => exact ⟨e, rfl⟩
  | ok props =>
      cases hstart : rangeBound startStr 0 with
      | error e =>
          use e
          rfl
      | ok start =>
          have hend : text = endStr := by
            rcases List.mem_pair.mp htext with rfl | rfl
            · obtain ⟨e, he⟩ := (rangeBound_eq_error_iff text 0).mpr hbad
              cases hstart.symm.trans he
            · rfl
          obtain ⟨e, he⟩ := (rangeBound_eq_error_iff text (props.size - 1)).mpr hbad
          use e
          rw [hend] at he
          change Except.bind (rangeBound endStr (props.size - 1)) _ = _
          rw [he]
          rfl

/-- For every file and every `Range` header, the whole file is served, or the range that is asked for
as it is announced, or a bound that is no number is refused, if and only if a range that is asked for
is one within the file that has a start or no bounds at all, and what the worker tells of the file, the
header of the response and the bytes get through. -/
theorem content_iff (ctx : ContentContext) (bytes : List UInt8) (disposition : String)
    (rangeHeader : Option String) :
  ContentServed bytes rangeHeader (content ctx disposition rangeHeader)
    ↔ ctx.Serves bytes disposition rangeHeader
  := by
  by_cases hnoNumber : NoNumber rangeHeader
  · constructor
    · intro _
      apply ContentContext.Serves.noNumber hnoNumber
    · intro _
      apply contentServed_of_noNumber ctx bytes disposition hnoNumber
  cases hparts : rangeHeader.bind rangeParts with
  | none =>
      rw [contentServed_whole_iff ctx hparts]
      constructor
      · rintro ⟨hready, hdelivers⟩
        apply ContentContext.Serves.whole hparts hready hdelivers
      · intro h
        cases h with
        | whole _ ready delivers => exact ⟨ready, delivers⟩
        | range _ _ _ _ parts => cases hparts.symm.trans parts
        | noNumber noNumber => contradiction
  | some parts =>
      obtain ⟨startStr, endStr⟩ := parts
      cases hstart : rangeBound startStr 0 with
      | error e =>
          have hbad := (rangeBound_eq_error_iff _ _).mp ⟨e, hstart⟩
          exfalso
          apply hnoNumber
          exact ⟨startStr, endStr, hparts, startStr, by simp, hbad⟩
      | ok start =>
          rw [contentServed_range_iff ctx hparts hnoNumber hstart]
          constructor
          · rintro ⟨stop, hstop, hwithin, hready, hdelivers⟩
            apply ContentContext.Serves.range _ _ _ _ hparts hstart hstop hwithin hready hdelivers
          · intro h
            cases h with
            | whole noRange => cases hparts.symm.trans noRange
            | range _ _ _ stop parts start_eq stop_eq within ready delivers =>
                cases hparts.symm.trans parts
                cases hstart.symm.trans start_eq
                exact ⟨stop, stop_eq, within, ready, delivers⟩
            | noNumber noNumber => contradiction

/-! ### A file that is read in the same process -/

/-- The texts that the header of a response is encoded to. -/
def latin1 (text : String) : Bool :=
  text.toList.all fun c => c.toNat < 256

/-- A file that can be read is served without a file worker: its bytes are those of the range. -/
def ContentContext.direct (guessType : String → Option String) (encodes : String → Bool)
    (name : String) (bytes : List UInt8) : ContentContext where
  guessType := guessType
  encodes := encodes
  properties := .ok ⟨name, bytes.length⟩
  frames offset length := (readRange bytes offset (some length)).toOption.getD []

/-- The bytes of a range are passed on by a file that is read in the same process. -/
theorem delivers_direct (guessType : String → Option String) (encodes : String → Bool)
    (name : String) (bytes : List UInt8) {offset : ℤ} (hoffset : 0 ≤ offset) (length : ℤ) :
  (ContentContext.direct guessType encodes name bytes).Delivers bytes offset length
  := by
  have hread : readRange bytes offset (some length)
      = .ok (readFrames length.toNat (bytes.drop offset.toNat)) := by
    rw [readRange, if_neg (Int.not_lt.mpr hoffset)]
    rfl
  change ((readRange bytes offset (some length)).toOption.getD []).flatten = _
  rw [hread]
  apply flatten_readFrames

/-- The last three bytes of a file are asked for, and the first four are served. -/
theorem not_contentServed_suffix :
  let bytes := [0, 1, 2, 3, 4, 5, 6, 7, 8, 9]
  let ctx := ContentContext.direct (fun _ => none) latin1 "data.bin" bytes
  ¬ ContentServed bytes (some "bytes=-3") (content ctx "inline" (some "bytes=-3"))
  := by
  intro bytes ctx h
  have hparts : (some "bytes=-3").bind rangeParts = some ([], ['3']) := by decide
  cases (content_iff ctx bytes "inline" (some "bytes=-3")).mp h with
  | whole noRange => cases hparts.symm.trans noRange
  | range startStr endStr _ _ parts _ _ within =>
      cases hparts.symm.trans parts
      rcases within.bounded with hbounded | hbounded
      · contradiction
      · contradiction
  | noNumber noNumber =>
      obtain ⟨_, _, parts, text, htext, hne, hint⟩ := noNumber
      cases hparts.symm.trans parts
      rcases List.mem_pair.mp htext with rfl | rfl
      · contradiction
      · revert hint
        decide
