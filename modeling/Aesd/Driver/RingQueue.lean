import Aesd.Driver.CircularBuffer
import Aesd.Lib.BoundedQueue

set_option relaxedAutoImplicit false
set_option autoImplicit false

/-!
# The circular buffer refines a bounded queue

The purpose of the circular buffer is to be a queue of the last ten commands. A buffer
*represents* a queue when its slots, read circularly from `in_offs`, are the slots never filled,
all zero, followed by the queue; the offsets and the flag then say how full the queue is. Adding
an entry to a buffer that represents a queue is a push to the queue, and the pointer returned is
that of the evicted entry.

## Main definitions

* `Aesd.Represents` — a buffer represents a queue of entries.
* `Aesd.addEntries` — a sequence of additions, with the pointers the calls returned.
* `Aesd.Filled` — a slot some addition of a sequence stored to.

## Main results

* `Aesd.Represents.addEntry` — the simulation of one addition by a push.
* `Aesd.ring_refines_queue` — the buffer after any sequence of additions.
-/

namespace Aesd

/-- The buffer represents the queue `q` of entries, oldest first. -/
structure Represents (buffer : AesdCircularBuffer) (q : List AesdBufferEntry) : Prop where
  inOffs_lt : buffer.inOffs < 10
  length_le : q.length ≤ 10
  unroll_eq : buffer.unroll = List.replicate (10 - q.length) .zero ++ q
  full_iff : buffer.full = true ↔ q.length = 10
  inOffs_eq : q.length < 10 → buffer.inOffs = q.length
  outOffs_eq : buffer.outOffs = if buffer.full then buffer.inOffs else 0

namespace Represents

variable {buffer : AesdCircularBuffer} {q : List AesdBufferEntry}

/-- The zeroed buffer represents the empty queue. -/
lemma init : Represents aesdCircularBufferInit [] :=
  ⟨by decide, by decide, by decide, by decide, by decide, by decide⟩

/-- The slot the next entry goes to holds the oldest entry of a full queue. -/
lemma slot_inOffs (h : Represents buffer q) (hq : q.length = 10) :
    some (buffer.slot buffer.inOffs) = q.head? := by
  have h0 := getD_unroll buffer (i := 0) (by omega)
  rw [Nat.zero_add, Nat.mod_eq_of_lt h.inOffs_lt, h.unroll_eq, hq] at h0
  rw [← h0]
  cases q with
  | nil => simp at hq
  | cons e q => rfl

/-- **Adding an entry is a push**: the buffer represents the queue after the push, and the
pointer returned is that of the evicted entry, `NULL` if there is none. -/
theorem addEntry (h : Represents buffer q) (e : AesdBufferEntry) :
    Represents (aesdCircularBufferAddEntry buffer e).2 (BoundedQueue.push 10 q e).2 ∧
      (aesdCircularBufferAddEntry buffer e).1 =
        ((BoundedQueue.push 10 q e).1.map (·.buffptr)).join := by
  have hin := h.inOffs_lt
  have hunroll := unroll_addEntry buffer e hin
  rw [h.unroll_eq] at hunroll
  have hlen := h.length_le
  rcases Nat.lt_or_ge q.length 10 with hq | hq
  · have hfull : buffer.full = false := by
      rw [← Bool.not_eq_true, h.full_iff]; omega
    have hpush : BoundedQueue.push 10 q e = (none, q ++ [e]) := if_pos hq
    have hoffs := h.inOffs_eq hq
    obtain ⟨k, hk⟩ : ∃ k, 10 - q.length = k + 1 := ⟨9 - q.length, by omega⟩
    rw [hpush]
    refine ⟨⟨?_, by simp; omega, ?_, ?_, ?_, ?_⟩, ?_⟩
    · rw [inOffs_addEntry]
      split_ifs <;> omega
    · rw [hunroll, hk, List.replicate_succ, List.cons_append, List.tail_cons, List.append_assoc,
        List.length_append, List.length_singleton, show 10 - (q.length + 1) = k by omega]
    · simp [full_addEntry, hfull, hoffs]
    · intro hq'
      simp only [List.length_append, List.length_singleton] at hq' ⊢
      rw [inOffs_addEntry, hoffs, if_neg (by omega), Nat.mod_eq_of_lt (by omega)]
    · rw [outOffs_addEntry, h.outOffs_eq, hfull, if_neg Bool.false_ne_true]
    · simp [fst_addEntry, hfull]
  · have hq10 : q.length = 10 := by omega
    have hfull : buffer.full = true := h.full_iff.mpr hq10
    have hpush : BoundedQueue.push 10 q e = ((q ++ [e]).head?, (q ++ [e]).tail) :=
      if_neg (by omega)
    have hne : q ≠ [] := by rintro rfl; simp at hq10
    have hlen' : (q ++ [e]).tail.length = 10 := by simp [hq10]
    have hfull' : (aesdCircularBufferAddEntry buffer e).2.full = true := by
      rw [full_addEntry, hfull, Bool.true_or]
    rw [hpush]
    refine ⟨⟨?_, hlen'.le, ?_, by simp [hfull', hlen'], fun hq' => ?_, ?_⟩, ?_⟩
    · rw [inOffs_addEntry]
      split_ifs <;> omega
    · rw [hunroll, hlen', hq10, List.tail_append_of_ne_nil hne]
      simp
    · exact absurd hlen' hq'.ne
    · rw [outOffs_addEntry, hfull', if_pos rfl, if_pos rfl]
    · rw [List.head?_append_of_ne_nil _ hne, ← h.slot_inOffs hq10, fst_addEntry, if_pos hfull]
      rfl

/-- The number of entries held. -/
lemma count_eq (h : Represents buffer q) : buffer.count = q.length := by
  have hlen := h.length_le
  unfold AesdCircularBuffer.count
  split_ifs with hf
  · exact (h.full_iff.mp hf).symm
  · rw [h.full_iff] at hf
    exact h.inOffs_eq (by omega)

/-- Reading from `in_offs` passes the slots that are not part of the queue first. -/
lemma slot_inOffs_zero (h : Represents buffer q) {i : ℕ} (hi : i < 10 - q.length) :
    buffer.slot ((i + buffer.inOffs) % 10) = .zero := by
  rw [← getD_unroll buffer (by omega), h.unroll_eq,
    List.getD_append _ _ _ _ (by simpa using hi), List.getD_replicate _ hi]

/-- Reading from `in_offs` comes to element `i` of the queue after the other slots. -/
lemma slot_inOffs_add (h : Represents buffer q) {i : ℕ} (hi : i < q.length) :
    buffer.slot ((10 - q.length + i + buffer.inOffs) % 10) = q[i] := by
  have hlen := h.length_le
  rw [← getD_unroll buffer (by omega), h.unroll_eq, List.getD_append_right _ _ _ _ (by simp),
    List.length_replicate, Nat.add_sub_cancel_left, List.getD_eq_getElem _ _ hi]

/-- Reading from `out_offs` starts at the oldest entry: element `i` of the queue is in the slot
`i` places after `out_offs`. -/
lemma slot_outOffs (h : Represents buffer q) {i : ℕ} (hi : i < q.length) :
    buffer.slot ((i + buffer.outOffs) % 10) = q[i] := by
  have hlen := h.length_le
  rw [← h.slot_inOffs_add hi, h.outOffs_eq]
  congr 1
  split_ifs with hf
  · rw [h.full_iff.mp hf]; omega
  · rw [h.full_iff] at hf
    rw [h.inOffs_eq (by omega)]; omega

/-- **The entries held are the queue.** -/
lemma held_eq (h : Represents buffer q) : buffer.held = q := by
  apply List.ext_getElem (by simp [AesdCircularBuffer.held, h.count_eq])
  intro i hi hi'
  simp only [AesdCircularBuffer.held, List.getElem_map, List.getElem_range]
  exact h.slot_outOffs hi'

end Represents

/-! ## Sequences of additions -/

/-- Add the entries of a list in order: the pointers the calls returned, and the buffer
afterwards. -/
def addEntries (buffer : AesdCircularBuffer) : List AesdBufferEntry → List Ptr × AesdCircularBuffer
  | [] => ([], buffer)
  | e :: es =>
    let call := aesdCircularBufferAddEntry buffer e
    let rest := addEntries call.2 es
    (call.1 :: rest.1, rest.2)

/-- Slot `i` is the one that some addition of the sequence `es` to the initial buffer stored
to: it was `in_offs` when that call was made. -/
def Filled (es : List AesdBufferEntry) (i : ℕ) : Prop :=
  ∃ k < es.length, (addEntries aesdCircularBufferInit (es.take k)).2.inOffs = i

instance (es : List AesdBufferEntry) : DecidablePred (Filled es) := fun i =>
  inferInstanceAs (Decidable (∃ k < es.length, _ = i))

/-- One more addition. -/
lemma addEntries_concat (buffer : AesdCircularBuffer) (es : List AesdBufferEntry)
    (e : AesdBufferEntry) :
    (addEntries buffer (es ++ [e])).2 =
      (aesdCircularBufferAddEntry (addEntries buffer es).2 e).2 := by
  induction es generalizing buffer with
  | nil => rfl
  | cons e' es ih => exact ih _

/-- A sequence of additions is a sequence of pushes. -/
lemma addEntries_represents {buffer : AesdCircularBuffer} {q : List AesdBufferEntry}
    (h : Represents buffer q) (es : List AesdBufferEntry) :
    Represents (addEntries buffer es).2 (BoundedQueue.pushAll 10 q es).2 ∧
      (addEntries buffer es).1 =
        (BoundedQueue.pushAll 10 q es).1.map fun o => (o.map (·.buffptr)).join := by
  induction es generalizing buffer q with
  | nil => exact ⟨h, rfl⟩
  | cons e es ih =>
    obtain ⟨hr, hp⟩ := h.addEntry e
    obtain ⟨hr', hp'⟩ := ih hr
    exact ⟨hr', by simp [addEntries, BoundedQueue.pushAll, hp, hp']⟩

/-- The buffer after a sequence of additions represents the last ten entries added. -/
lemma addEntries_init (es : List AesdBufferEntry) :
    Represents (addEntries aesdCircularBufferInit es).2 (es.rtake 10) := by
  have h := (addEntries_represents Represents.init es).1
  rwa [BoundedQueue.pushAll_nil_snd] at h

/-- The next slot after a sequence of additions: the slots are filled in order, over and over. -/
lemma inOffs_addEntries (es : List AesdBufferEntry) :
    (addEntries aesdCircularBufferInit es).2.inOffs = es.length % 10 := by
  induction es using List.reverseRecOn with
  | nil => rfl
  | append_singleton es e ih =>
    rw [addEntries_concat, inOffs_addEntry, ih, List.length_append, List.length_singleton]
    split_ifs <;> omega

/-- The slots filled by a sequence of additions. -/
lemma filled_iff {es : List AesdBufferEntry} {i : ℕ} : Filled es i ↔ i < 10 ∧ i < es.length := by
  simp only [Filled, inOffs_addEntries, List.length_take]
  constructor
  · rintro ⟨k, hk, rfl⟩
    omega
  · rintro ⟨hi, hes⟩
    exact ⟨i, hes, by omega⟩

/-- The pointers a sequence of additions returned: `NULL` while the buffer fills, then the
pointers of the entries in the order in which they were added. -/
lemma addEntries_returned (es : List AesdBufferEntry) :
    (addEntries aesdCircularBufferInit es).1 =
      List.replicate (min es.length 10) none ++ (es.take (es.length - 10)).map (·.buffptr) := by
  rw [(addEntries_represents Represents.init es).2, BoundedQueue.pushAll_nil_fst, List.map_append,
    List.map_replicate, List.map_map]
  rfl

/-- Reading all slots circularly from `in_offs` and skipping those never filled.

**Proof sketch.** Split the ten places after `in_offs` at `10 - m`, where `m` is the number of
entries held. If the buffer is not full, `in_offs` is `m` and the first `10 - m` places are the
slots from `m` on, which were never filled; the other places wrap around to the slots below
`m`, which hold the queue. -/
lemma circular_filled (es : List AesdBufferEntry) :
    ((((List.range 10).map fun i => (i + (addEntries aesdCircularBufferInit es).2.inOffs) % 10).filter
      fun i => Filled es i).map (addEntries aesdCircularBufferInit es).2.slot) = es.rtake 10 := by
  have h := addEntries_init es
  have hlen : (es.rtake 10).length = min 10 es.length := CircularList.length_rtake es 10
  have hoffs := inOffs_addEntries es
  rw [show List.range 10 = List.range (10 - (es.rtake 10).length) ++
      (List.range (es.rtake 10).length).map (10 - (es.rtake 10).length + ·) by
    rw [← List.range_add]; congr 1; omega]
  rw [List.map_append, List.filter_append, List.map_append]
  have hfirst : ((List.range (10 - (es.rtake 10).length)).map fun i =>
      (i + (addEntries aesdCircularBufferInit es).2.inOffs) % 10).filter (fun i => Filled es i) = [] := by
    simp only [List.filter_eq_nil_iff, List.mem_map, List.mem_range, decide_eq_true_eq, filled_iff]
    rintro _ ⟨i, hi, rfl⟩
    omega
  have hsecond : (((List.range (es.rtake 10).length).map (10 - (es.rtake 10).length + ·)).map fun i =>
      (i + (addEntries aesdCircularBufferInit es).2.inOffs) % 10).filter (fun i => Filled es i) =
      ((List.range (es.rtake 10).length).map (10 - (es.rtake 10).length + ·)).map fun i =>
        (i + (addEntries aesdCircularBufferInit es).2.inOffs) % 10 := by
    simp only [List.filter_eq_self, List.mem_map, List.mem_range, decide_eq_true_eq, filled_iff]
    rintro _ ⟨_, ⟨i, hi, rfl⟩, rfl⟩
    omega
  rw [hfirst, hsecond, List.map_nil, List.nil_append]
  apply List.ext_getElem (by simp)
  intro i hi hi'
  simp only [List.getElem_map, List.getElem_range]
  exact h.slot_inOffs_add hi'

/-- **The ring refines a bounded queue of the last ten commands.** After any sequence `es` of
additions to the initial buffer: reading the slots circularly from `in_offs` and skipping the
never-filled ones, or reading as many slots as entries are held from `out_offs`, gives the last
ten entries, oldest first; the offsets stay in range, the flag says whether ten entries were
added, a slot not yet filled is zero; call `k` (from `0`) returned `NULL` below `10` and the
pointer added ten calls earlier from then on, so that the entries are those whose pointer was
returned, each once and in order, followed by those held.

**Proof sketch.** `addEntries_init` gives the queue the buffer represents; the returned pointers
are those of the entries the pushes evict. -/
theorem ring_refines_queue (es : List AesdBufferEntry) :
    let buffer := (addEntries aesdCircularBufferInit es).2
    let returned := (addEntries aesdCircularBufferInit es).1
    ((((List.range 10).map fun i => (i + buffer.inOffs) % 10).filter fun i => Filled es i).map
        buffer.slot) = es.rtake 10 ∧
      ((List.range (min es.length 10)).map fun i => buffer.slot ((i + buffer.outOffs) % 10)) =
        es.rtake 10 ∧
      buffer.inOffs < 10 ∧ buffer.outOffs < 10 ∧ (buffer.full = true ↔ 10 ≤ es.length) ∧
      (∀ i < 10, ¬Filled es i → buffer.slot i = .zero) ∧
      returned.length = es.length ∧
      (∀ k (hk : k < es.length),
        returned[k]? = some (if k < 10 then none else (es.get ⟨k - 10, by omega⟩).buffptr)) ∧
      ∃ evicted, returned = List.replicate (min es.length 10) none ++ evicted.map (·.buffptr) ∧
        evicted ++ es.rtake 10 = es := by
  intro buffer returned
  have h : Represents buffer (es.rtake 10) := addEntries_init es
  have hret : returned = List.replicate (min es.length 10) none ++
      (es.take (es.length - 10)).map (·.buffptr) := addEntries_returned es
  have hlen : (es.rtake 10).length = min 10 es.length := CircularList.length_rtake es 10
  have hoffs : buffer.inOffs = es.length % 10 := inOffs_addEntries es
  refine ⟨circular_filled es, ?_, h.inOffs_lt, ?_, ?_, ?_, ?_, ?_,
    ⟨es.take (es.length - 10), hret, BoundedQueue.take_append_rtake 10 es⟩⟩
  · rw [Nat.min_comm, ← hlen, ← h.count_eq]
    exact h.held_eq
  · rw [h.outOffs_eq]
    split_ifs <;> omega
  · rw [h.full_iff, hlen]
    omega
  · intro i hi hfilled
    rw [filled_iff] at hfilled
    have hz := h.slot_inOffs_zero (i := i - es.length) (by omega)
    rwa [hoffs, show (i - es.length + es.length % 10) % 10 = i by omega] at hz
  · rw [hret]
    simp
    omega
  · intro k hk
    rw [hret]
    split_ifs with hk10
    · rw [List.getElem?_append_left (by simp; omega), List.getElem?_replicate, if_pos (by omega)]
    · rw [List.getElem?_append_right (by simp; omega), List.length_replicate, List.getElem?_map,
        List.getElem?_take_of_lt (by omega), show k - min es.length 10 = k - 10 by omega,
        List.getElem?_eq_getElem (by omega)]
      rfl

end Aesd
