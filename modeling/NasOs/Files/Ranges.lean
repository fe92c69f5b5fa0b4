import NasOs.Files.Content

/-!
# The pieces of a range

`read_range` step by step: a file is opened and set to an offset, and read in pieces until what remains
of the range, or the file, is at its end.  The pieces make up the range, as far as it lies in the file,
also if it begins or ends beyond it.  Only an offset to which no file can be set raises: the type of
offsets has 64 bits, and a file system may allow less.
-/

/-- A file that is open for reading: its bytes, and where it is set to. -/
structure OpenFile where
  bytes : List UInt8
  position : ℕ

namespace OpenFile

/-- `seek`, where `limit` is the largest offset that a file can be set to. -/
def seek (limit : ℕ) (file : OpenFile) (offset : ℤ) : Except Exc OpenFile :=
  if offset < 0 then .error (.other "[Errno 22] Invalid argument")
  else if (limit : ℤ) < offset then .error (.other "cannot fit 'int' into an offset-sized integer")
  else .ok { file with position := offset.toNat }

/-- `read`: as many bytes as are asked for, or those up to the end of the file. -/
def read (file : OpenFile) (size : ℕ) : List UInt8 × OpenFile :=
  let chunk := (file.bytes.drop file.position).take size
  (chunk, { file with position := file.position + chunk.length })

end OpenFile

namespace Filedata

/-- The loop of `read_range`. -/
def readLoop (file : OpenFile) (remaining : ℤ) : List (List UInt8) :=
  if _ : 0 < remaining then
    match file.read (min (downloadFrameSize : ℤ) remaining).toNat with
    | (chunk, file) =>
        if _ : chunk = [] then [] else chunk :: readLoop file (remaining - chunk.length)
  else []
termination_by remaining.toNat
decreasing_by
  have hlength := List.length_pos_iff.mpr ‹¬ chunk = []›
  omega

/-- `read_range`. -/
def readRange (limit : ℕ) (bytes : List UInt8) (offset : ℤ) (length : Option ℤ) :
    Except Exc (List (List UInt8)) := do
  let remaining := length.getD ((bytes.length : ℤ) - offset)
  let remaining := if remaining < 0 then 0 else remaining
  let file ← (OpenFile.mk bytes 0).seek limit offset
  .ok (readLoop file remaining)

/-- The pieces of the loop are those that come next in the file. -/
theorem readLoop_eq (file : OpenFile) (remaining : ℤ) :
  readLoop file remaining = readFrames remaining.toNat (file.bytes.drop file.position)
  := by
  induction hn : remaining.toNat using Nat.strong_induction_on generalizing file remaining with
  | _ n ih =>
      subst hn
      rw [readLoop, readFrames]
      by_cases hremaining : 0 < remaining
      · have hsize : (min (downloadFrameSize : ℤ) remaining).toNat
            = min downloadFrameSize remaining.toNat := by
          omega
        have hzero : remaining.toNat ≠ 0 := by omega
        have hframe : min downloadFrameSize remaining.toNat ≠ 0 := by
          simp only [downloadFrameSize]
          omega
        rw [dif_pos hremaining]
        simp only [OpenFile.read, hsize, List.take_eq_nil_iff, hframe, hzero, false_or]
        split
        · rfl
        · rename_i hrest
          have hlength := List.length_pos_iff.mpr hrest
          rw [ih _ _ _ _ rfl]
          · rw [List.drop_drop]
            congr 2
            omega
          · rw [List.length_take]
            omega
      · rw [dif_neg hremaining, if_pos]
        left
        omega

/-- The pieces are not empty, and no larger than a frame. -/
theorem length_of_mem_readFrames {remaining : ℕ} {rest frame : List UInt8}
    (h : frame ∈ readFrames remaining rest) :
  frame ≠ [] ∧ frame.length ≤ downloadFrameSize
  := by
  induction hn : remaining using Nat.strong_induction_on generalizing remaining rest with
  | _ n ih =>
      subst hn
      rw [readFrames] at h
      split at h
      · cases h
      · rename_i hstop
        obtain ⟨hremaining, hrest⟩ := not_or.mp hstop
        have hlength := List.length_pos_iff.mpr hrest
        rcases List.mem_cons.mp h with rfl | h
        · constructor
          · rw [← List.length_pos_iff, List.length_take]
            simp only [downloadFrameSize]
            omega
          · rw [List.length_take]
            omega
        · apply ih _ _ h rfl
          rw [List.length_take]
          simp only [downloadFrameSize]
          omega

/-- The part of a file from an offset on, up to a length if there is one; a length below 0 is none at
all. -/
def slice (bytes : List UInt8) (offset : ℕ) (length : Option ℤ) : List UInt8 :=
  match length with
  | none => bytes.drop offset
  | some length => (bytes.drop offset).take (max length 0).toNat

/-- The range is read: it ends, with pieces that are not empty and no larger than a frame, and make up
the part of the file that is asked for. -/
def RangeRead (bytes : List UInt8) (offset : ℕ) (length : Option ℤ)
    (result : Except Exc (List (List UInt8))) : Prop :=
  ∃ frames, result = .ok frames ∧ (∀ frame ∈ frames, frame ≠ [] ∧ frame.length ≤ downloadFrameSize)
    ∧ frames.flatten = slice bytes offset length

/-- The bytes that the loop is asked for make up the range. -/
theorem take_remaining (bytes : List UInt8) (offset : ℕ) (length : Option ℤ) :
  (bytes.drop offset).take (length.getD ((bytes.length : ℤ) - offset)).toNat = slice bytes offset length
  := by
  cases length with
  | none =>
      rw [slice, Option.getD_none, List.take_of_length_le]
      rw [List.length_drop]
      omega
  | some length =>
      rw [slice, Option.getD_some]
      congr 1
      omega

end Filedata

/-- Within the limit, a range is read as from a file that is known. -/
theorem readRange_within {limit : ℕ} {offset : ℕ} (hlimit : offset ≤ limit) (bytes : List UInt8)
    (length : Option ℤ) :
  Filedata.readRange limit bytes offset length = readRange bytes offset length
  := by
  have hnonneg : ¬ (offset : ℤ) < 0 := by omega
  have hle : ¬ (limit : ℤ) < offset := by omega
  have hclamp : ∀ n : ℤ, (if n < 0 then 0 else n).toNat = n.toNat := by
    intro n
    split
    · omega
    · rfl
  rw [Filedata.readRange, OpenFile.seek, if_neg hnonneg, if_neg hle, readRange, if_neg hnonneg]
  change Except.ok (Filedata.readLoop _ _) = _
  rw [Filedata.readLoop_eq, hclamp]

/-- A range is read if and only if files can be set to its offset. -/
theorem rangeRead_iff (limit : ℕ) (bytes : List UInt8) (offset : ℕ) (length : Option ℤ) :
  Filedata.RangeRead bytes offset length (Filedata.readRange limit bytes offset length) ↔ offset ≤ limit
  := by
  have hnonneg : ¬ (offset : ℤ) < 0 := by omega
  constructor
  · rintro ⟨frames, heq, -⟩
    by_contra hlimit
    have hlt : (limit : ℤ) < offset := by omega
    rw [Filedata.readRange, OpenFile.seek, if_neg hnonneg, if_pos hlt] at heq
    cases heq
  · intro hlimit
    rw [readRange_within hlimit, readRange, if_neg hnonneg, Int.toNat_natCast]
    refine ⟨_, rfl, ?_, ?_⟩
    · intro frame hframe
      apply Filedata.length_of_mem_readFrames hframe
    · rw [flatten_readFrames, Filedata.take_remaining]

/-- An offset that does not fit the type of offsets raises, for a file as for any other. -/
theorem not_rangeRead_beyond :
  ¬ Filedata.RangeRead [] (2 ^ 63) none
      (Filedata.readRange (2 ^ 63 - 1) [] ((2 ^ 63 : ℕ) : ℤ) none)
  := by
  rintro ⟨frames, heq, -⟩
  cases heq
