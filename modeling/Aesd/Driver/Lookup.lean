import Aesd.Driver.RingQueue

set_option relaxedAutoImplicit false
set_option autoImplicit false

/-!
# The position lookup over the whole `size_t` range

The lookup compares the shifted position `char_offset + 1` with the bytes passed so far. Up to
`2 ^ 64 - 2` it finds exactly the entry that holds the byte at the position. At `2 ^ 64 - 1` the
shifted position is `0`, which the inclusive comparison accepts for the first slot it looks at.

## Main definitions

* `Aesd.LookupExact` — the lookup answers as documented.

## Main results

* `Aesd.Represents.find` — the lookup in a buffer that represents a queue.
* `Aesd.lookup_exact` — for which positions the lookup answers as documented.
-/

namespace Aesd

/-- The lookup of `charOffset` answers as documented in a buffer that holds the entries `q`: below
the total size it returns the entry of `q` that holds the byte, with the offset of the byte in it,
and otherwise `NULL`, without writing an offset. -/
structure LookupExact (buffer : AesdCircularBuffer) (q : List AesdBufferEntry)
    (charOffset : ℕ) : Prop where
  found : charOffset < (q.map (·.size)).sum →
    ∃ (k : ℕ) (hk : k < q.length) (off : ℕ),
      aesdCircularBufferFindEntryOffsetForFpos buffer charOffset =
        some ((k + buffer.outOffs) % 10, off) ∧
      buffer.slot ((k + buffer.outOffs) % 10) = q.get ⟨k, hk⟩ ∧
      charOffset = ((q.take k).map (·.size)).sum + off ∧ off < (q.get ⟨k, hk⟩).size ∧
      -- whatever the entries contain, the byte returned is the byte at the position
      ∀ contents : List (List UInt8), contents.map List.length = q.map (·.size) →
        contents.flatten[charOffset]? = (contents.getD k [])[off]?
  missing : (q.map (·.size)).sum ≤ charOffset →
    aesdCircularBufferFindEntryOffsetForFpos buffer charOffset = none

variable {buffer : AesdCircularBuffer} {q : List AesdBufferEntry} {charOffset : ℕ}

namespace Represents

/-- The sizes of the unrolled slots: those not held have no size. -/
lemma map_size_unroll (h : Represents buffer q) :
    buffer.unroll.map (·.size) = List.replicate (10 - q.length) 0 ++ q.map (·.size) := by
  rw [h.unroll_eq, List.map_append, List.map_replicate]
  rfl

/-- The slot reached from `in_offs` past the slots not held is the one reached from `out_offs`. -/
lemma slot_index (h : Represents buffer q) (k : ℕ) :
    (k + (10 - q.length) + buffer.inOffs) % 10 = (k + buffer.outOffs) % 10 := by
  have hlen := h.length_le
  rw [h.outOffs_eq]
  split_ifs with hf
  · rw [h.full_iff.mp hf]
    omega
  · rw [h.full_iff] at hf
    rw [h.inOffs_eq (by omega)]
    omega

/-- **The lookup in a buffer that represents a queue** is the lookup in the queue, as long as the
shifted position does not wrap around. -/
lemma find (h : Represents buffer q) (hc : charOffset + 1 < 2 ^ 64)
    (hsum : (q.map (·.size)).sum < 2 ^ 64) :
    aesdCircularBufferFindEntryOffsetForFpos buffer charOffset =
      (Segments.locate (q.map (·.size)) charOffset).map
        fun p => ((p.1 + buffer.outOffs) % 10, p.2) := by
  have hunroll := h.map_size_unroll
  have htotal : (buffer.unroll.map (·.size)).sum < 2 ^ 64 := by
    rw [hunroll, List.sum_append, List.sum_replicate_nat, Nat.mul_zero, Nat.zero_add]
    exact hsum
  rw [find_eq_locate hc htotal, hunroll, Segments.locate_replicate_zero_append, Option.map_map]
  cases hloc : Segments.locate (q.map (·.size)) charOffset with
  | none => rfl
  | some p =>
    simp only [Option.map_some, Function.comp, h.slot_index]

/-- The lookup answers as documented, as long as the shifted position does not wrap around. -/
lemma lookupExact (h : Represents buffer q) (hc : charOffset + 1 < 2 ^ 64)
    (hsum : (q.map (·.size)).sum < 2 ^ 64) : LookupExact buffer q charOffset := by
  have hfind := h.find hc hsum
  constructor
  · intro hlt
    obtain ⟨⟨k, off⟩, hloc⟩ := Option.ne_none_iff_exists'.mp
      (Segments.locate_eq_none.not.mpr (Nat.not_le.mpr hlt))
    have hk : k < q.length := by simpa using Segments.index_lt hloc
    obtain ⟨hoff, hpos⟩ := Segments.locate_eq_some.mp hloc
    rw [List.getD_eq_getElem _ _ (by simpa using hk), List.getElem_map] at hoff
    rw [hloc] at hfind
    refine ⟨k, hk, off, hfind, h.slot_outOffs hk, ?_, hoff, ?_⟩
    · rw [List.map_take]
      exact hpos
    · intro contents hcontents
      exact Segments.getElem?_flatten (hcontents ▸ hloc)
  · intro hle
    rw [hfind, Segments.locate_eq_none.mpr hle]
    rfl

end Represents

/-- At the end of the `size_t` range the lookup returns the first slot it looks at. -/
lemma find_of_wrap (buffer : AesdCircularBuffer) :
    aesdCircularBufferFindEntryOffsetForFpos buffer (2 ^ 64 - 1) =
      some ((0 + buffer.inOffs) % 10, 2 ^ 64 - 1) := by
  rw [aesdCircularBufferFindEntryOffsetForFpos,
    show sizeT (2 ^ 64 - 1 + 1) = 0 by decide, maxWriteOperationsSupported, findLoop,
    if_pos ⟨le_rfl, Nat.zero_le _⟩]
  rfl

/-- **The lookup is exact except at the last position of the `size_t` range.** In the buffer after
any sequence `es` of additions whose held entries, the last ten, have sizes that sum to less than
`2 ^ 64`, the lookup of a position answers as documented exactly if the position is not
`2 ^ 64 - 1`.

**Proof sketch.** Below `2 ^ 64 - 1` the shifted position does not wrap around, and the walk is a
lookup in the queue after slots of no size. At `2 ^ 64 - 1`, which no byte can have, the walk
returns the slot at `in_offs` instead of `NULL`. -/
theorem lookup_exact (es : List AesdBufferEntry) (charOffset : ℕ)
    (hsum : ((es.rtake 10).map (·.size)).sum < 2 ^ 64) (hc : charOffset < 2 ^ 64) :
    LookupExact (addEntries aesdCircularBufferInit es).2 (es.rtake 10) charOffset ↔
      charOffset ≠ 2 ^ 64 - 1 := by
  constructor
  · rintro h rfl
    have hnone := h.missing (by omega)
    rw [find_of_wrap] at hnone
    exact absurd hnone (Option.some_ne_none _)
  · intro hne
    exact (addEntries_init es).lookupExact (by omega) hsum

/-- Position `2` in a buffer with the entries of sizes `1`, `0` and `3`. -/
theorem lookup_exact_three_entries :
    LookupExact (addEntries aesdCircularBufferInit [⟨some 0, 1⟩, ⟨some 1, 0⟩, ⟨some 2, 3⟩]).2
      [⟨some 0, 1⟩, ⟨some 1, 0⟩, ⟨some 2, 3⟩] 2 :=
  (lookup_exact [⟨some 0, 1⟩, ⟨some 1, 0⟩, ⟨some 2, 3⟩] 2 (by decide) (by decide)).mpr (by decide)

/-- In the initial buffer the lookup of position `2 ^ 64 - 1` returns a slot. -/
theorem lookup_exact_fails :
    ¬∀ (es : List AesdBufferEntry) (charOffset : ℕ), ((es.rtake 10).map (·.size)).sum < 2 ^ 64 →
      charOffset < 2 ^ 64 →
      LookupExact (addEntries aesdCircularBufferInit es).2 (es.rtake 10) charOffset := by
  intro h
  have hnone := (h [] (2 ^ 64 - 1) (by decide) (by decide)).missing (by decide)
  exact absurd hnone (by decide)

end Aesd
