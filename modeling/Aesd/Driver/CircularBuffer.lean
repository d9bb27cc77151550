import Aesd.Lib.CircularList
import Aesd.Lib.Segments

set_option relaxedAutoImplicit false
set_option autoImplicit false

/-!
# The circular buffer

The data structure of `aesd-circular-buffer.c`: an array of ten entries, each a pointer with a
size, the slot the next entry goes to, the slot of the oldest entry and a flag that tells a full
buffer from an empty one. Entries are only added; once the array is full, adding overwrites the
oldest entry and returns its pointer, which the caller has to release.

`size_t` arithmetic is modulo `2 ^ 64` and a `uint8_t` is incremented modulo `2 ^ 8`.

## Main definitions

* `Aesd.aesdCircularBufferInit`, `Aesd.aesdCircularBufferAddEntry`,
  `Aesd.aesdCircularBufferFindEntryOffsetForFpos` — the three operations.
* `Aesd.AesdCircularBuffer.unroll` — the slots read circularly from `in_offs`.
* `Aesd.AesdCircularBuffer.held` — the entries held, read from `out_offs`.

## Main results

* `Aesd.unroll_addEntry` — adding an entry shifts the unrolled slots by one.
* `Aesd.find_eq_locate` — the lookup finds the position in the unrolled slots.
-/

namespace Aesd

/-- `AESDCHAR_MAX_WRITE_OPERATIONS_SUPPORTED`. -/
abbrev maxWriteOperationsSupported : ℕ := 10

/-- The value of a `size_t`. -/
def sizeT (n : ℕ) : ℕ := n % 2 ^ 64

/-- A `size_t` below `2 ^ 64` is unchanged. -/
lemma sizeT_of_lt {n : ℕ} (h : n < 2 ^ 64) : sizeT n = n := Nat.mod_eq_of_lt h

/-- A pointer: `none` is `NULL`. -/
abbrev Ptr := Option ℕ

/-- `struct aesd_buffer_entry`: where the contents of a command are stored, and their size. -/
structure AesdBufferEntry where
  buffptr : Ptr
  size : ℕ
deriving DecidableEq, Repr

/-- An entry after `memset(.., 0, ..)`. -/
def AesdBufferEntry.zero : AesdBufferEntry := ⟨none, 0⟩

/-- `struct aesd_circular_buffer`. -/
structure AesdCircularBuffer where
  entry : Vector AesdBufferEntry maxWriteOperationsSupported
  inOffs : ℕ
  outOffs : ℕ
  full : Bool
deriving DecidableEq, Repr

namespace AesdCircularBuffer

/-- `buffer->entry[i]`. -/
def slot (buffer : AesdCircularBuffer) (i : ℕ) : AesdBufferEntry :=
  buffer.entry.toList.getD i .zero

/-- The slots read circularly from `in_offs`. -/
def unroll (buffer : AesdCircularBuffer) : List AesdBufferEntry :=
  buffer.entry.toList.rotate buffer.inOffs

/-- The number of entries held. -/
def count (buffer : AesdCircularBuffer) : ℕ :=
  if buffer.full then maxWriteOperationsSupported else buffer.inOffs

/-- The entries held, read circularly from `out_offs`. -/
def held (buffer : AesdCircularBuffer) : List AesdBufferEntry :=
  (List.range buffer.count).map fun i =>
    buffer.slot ((i + buffer.outOffs) % maxWriteOperationsSupported)

end AesdCircularBuffer

/-- `aesd_circular_buffer_init`: zero the whole structure. -/
def aesdCircularBufferInit : AesdCircularBuffer :=
  { entry := .replicate _ .zero, inOffs := 0, outOffs := 0, full := false }

/-- `aesd_circular_buffer_add_entry`: store the entry at `in_offs`, and return the pointer it
overwrites if the buffer was full. -/
def aesdCircularBufferAddEntry (buffer : AesdCircularBuffer) (addEntry : AesdBufferEntry) :
    Ptr × AesdCircularBuffer :=
  let rtnPtr := if buffer.full then (buffer.slot buffer.inOffs).buffptr else none
  let entry := buffer.entry.setIfInBounds buffer.inOffs addEntry
  let full := buffer.full || buffer.inOffs == maxWriteOperationsSupported - 1
  let inOffs :=
    if buffer.inOffs = maxWriteOperationsSupported - 1 then 0 else (buffer.inOffs + 1) % 2 ^ 8
  let outOffs := if full then inOffs else buffer.outOffs
  (rtnPtr, { entry, inOffs, outOffs, full })

/-- The loop of `aesd_circular_buffer_find_entry_offset_for_fpos`, with the number of
iterations left, the loop counter and the bytes passed so far. -/
def findLoop (buffer : AesdCircularBuffer) (charOffset charNum : ℕ) :
    ℕ → ℕ → ℕ → Option (ℕ × ℕ)
  | 0, _, _ => none
  | fuel + 1, idx, totalByteCount =>
    let entIdx := (idx + buffer.inOffs) % maxWriteOperationsSupported
    let ent := buffer.slot entIdx
    if totalByteCount ≤ charNum ∧ charNum ≤ sizeT (totalByteCount + ent.size) then
      some (entIdx, sizeT (charOffset + 2 ^ 64 - totalByteCount))
    else findLoop buffer charOffset charNum fuel (idx + 1) (sizeT (totalByteCount + ent.size))

/-- `aesd_circular_buffer_find_entry_offset_for_fpos`: the slot that holds the byte at
`charOffset` and the offset of the byte in it; `none` when the function returns `NULL`, in
which case it writes no offset. -/
def aesdCircularBufferFindEntryOffsetForFpos (buffer : AesdCircularBuffer) (charOffset : ℕ) :
    Option (ℕ × ℕ) :=
  findLoop buffer charOffset (sizeT (charOffset + 1)) maxWriteOperationsSupported 0 0

/-! ## Slots -/

section Slots

variable (buffer : AesdCircularBuffer)

@[simp] lemma length_entry : buffer.entry.toList.length = 10 := by simp

@[simp] lemma length_unroll : buffer.unroll.length = 10 := by
  simp [AesdCircularBuffer.unroll]

/-- Slot `i` of the unrolled buffer. -/
lemma getD_unroll {i : ℕ} (hi : i < 10) :
    buffer.unroll.getD i .zero = buffer.slot ((i + buffer.inOffs) % 10) := by
  rw [AesdCircularBuffer.unroll, CircularList.getD_rotate _ (by simpa using hi), length_entry]
  rfl

/-- The unrolled slots are the slots in another order. -/
lemma unroll_perm : buffer.unroll.Perm buffer.entry.toList := List.rotate_perm _ _

/-- The next slot after an addition. -/
lemma inOffs_addEntry (e : AesdBufferEntry) :
    (aesdCircularBufferAddEntry buffer e).2.inOffs =
      if buffer.inOffs = 9 then 0 else (buffer.inOffs + 1) % 2 ^ 8 := rfl

/-- The flag after an addition. -/
lemma full_addEntry (e : AesdBufferEntry) :
    (aesdCircularBufferAddEntry buffer e).2.full = (buffer.full || buffer.inOffs == 9) := rfl

/-- The slot of the oldest entry after an addition. -/
lemma outOffs_addEntry (e : AesdBufferEntry) :
    (aesdCircularBufferAddEntry buffer e).2.outOffs =
      if (aesdCircularBufferAddEntry buffer e).2.full then
        (aesdCircularBufferAddEntry buffer e).2.inOffs else buffer.outOffs := rfl

/-- The pointer an addition returns. -/
lemma fst_addEntry (e : AesdBufferEntry) :
    (aesdCircularBufferAddEntry buffer e).1 =
      if buffer.full then (buffer.slot buffer.inOffs).buffptr else none := rfl

/-- **One addition on the unrolled slots**: the first one is dropped and the new entry is
appended. -/
lemma unroll_addEntry (e : AesdBufferEntry) (h : buffer.inOffs < 10) :
    (aesdCircularBufferAddEntry buffer e).2.unroll = buffer.unroll.tail ++ [e] := by
  have hoffs : (aesdCircularBufferAddEntry buffer e).2.inOffs = (buffer.inOffs + 1) % 10 := by
    rw [inOffs_addEntry]
    split_ifs <;> omega
  have hset := CircularList.rotate_set (l := buffer.entry.toList) e (by simpa using h)
  rw [length_entry] at hset
  rw [AesdCircularBuffer.unroll, hoffs, AesdCircularBuffer.unroll, ← hset]
  simp [aesdCircularBufferAddEntry]

end Slots

/-! ## The lookup -/

/-- Looking up a byte from iteration `idx` on, when no earlier slot holds it.

**Proof sketch.** Induction on the iterations left. The slot of the current iteration starts at
`total ≤ charOffset`, so the inclusive test on `charOffset + 1` succeeds exactly when
`charOffset` is below the slot's end; otherwise the next slot starts at the new total, still at
most `charOffset`. -/
lemma findLoop_eq {buffer : AesdCircularBuffer} {charOffset : ℕ} (hc : charOffset + 1 < 2 ^ 64)
    (fuel idx total : ℕ) (hfuel : fuel + idx = 10) (htotal : total ≤ charOffset)
    (hsum : total + ((buffer.unroll.drop idx).map (·.size)).sum < 2 ^ 64) :
    findLoop buffer charOffset (charOffset + 1) fuel idx total =
      (Segments.locate ((buffer.unroll.drop idx).map (·.size)) (charOffset - total)).map
        fun p => ((p.1 + idx + buffer.inOffs) % 10, p.2) := by
  induction fuel generalizing idx total with
  | zero =>
    rw [List.drop_of_length_le (by simp; omega)]
    rfl
  | succ fuel ih =>
    have hidx : idx < buffer.unroll.length := by simp; omega
    have hslot : buffer.unroll[idx] = buffer.slot ((idx + buffer.inOffs) % 10) := by
      rw [← getD_unroll buffer (by omega), List.getD_eq_getElem _ _ hidx]
    rw [List.drop_eq_getElem_cons hidx, hslot] at hsum ⊢
    simp only [List.map_cons, List.sum_cons] at hsum ⊢
    set size := (buffer.slot ((idx + buffer.inOffs) % 10)).size
    have hsize : sizeT (total + size) = total + size := sizeT_of_lt (by omega)
    simp only [findLoop, maxWriteOperationsSupported, Segments.locate]
    rw [show (buffer.slot ((idx + buffer.inOffs) % 10)).size = size from rfl, hsize]
    by_cases hin : charOffset - total < size
    · rw [if_pos ⟨by omega, by omega⟩, if_pos hin, sizeT, Option.map_some, Nat.zero_add]
      congr 2
      omega
    · rw [if_neg (by omega), if_neg hin, ih (idx + 1) (total + size) (by omega) (by omega) (by omega),
        Option.map_map, Nat.sub_add_eq]
      congr 1
      funext p
      simp only [Function.comp]
      congr 2
      omega

/-- **The lookup is a lookup in the unrolled slots**, as long as the sizes and the offset do not
reach the end of the `size_t` range. -/
lemma find_eq_locate {buffer : AesdCircularBuffer} {charOffset : ℕ}
    (hc : charOffset + 1 < 2 ^ 64) (hsum : (buffer.unroll.map (·.size)).sum < 2 ^ 64) :
    aesdCircularBufferFindEntryOffsetForFpos buffer charOffset =
      (Segments.locate (buffer.unroll.map (·.size)) charOffset).map
        fun p => ((p.1 + buffer.inOffs) % 10, p.2) := by
  rw [aesdCircularBufferFindEntryOffsetForFpos, sizeT_of_lt hc,
    findLoop_eq hc 10 0 0 rfl (Nat.zero_le _) (by simpa using hsum)]
  simp

end Aesd
