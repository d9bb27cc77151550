import Aesd.Driver.Module
import Aesd.Driver.RingQueue
import Mathlib.Algebra.Order.BigOperators.Group.List
import Mathlib.Algebra.Order.Ring.Nat
import Mathlib.Algebra.Group.Action.Defs

set_option relaxedAutoImplicit false
set_option autoImplicit false

/-!
# The invariant of the driver

Between two calls the circular buffer represents a queue of entries, every entry held and the
pending entry point to live data blocks that are large enough, and the live objects of the heap
are exactly the persistent entry structure, the block of the pending entry and the blocks of the
entries held. While a call runs it owns some more objects: these are the last argument of the
invariant, which makes one statement serve all stages of a write.

## Main definitions

* `Aesd.Inv` — the invariant, for the queue of entries held and the objects a running call owns.
* `Aesd.Driver.commands`, `Aesd.Driver.pending` — the contents of the commands held, oldest
  first, and the pending bytes.

## Main results

* `Aesd.Inv.frame` — a heap that agrees on the owned objects keeps the invariant.
* `Aesd.inv_initialDriver` — the invariant after initialisation.
-/

namespace Aesd

/-- The pointers of a list of entries. -/
def ptrs (q : List AesdBufferEntry) : List ℕ := q.filterMap (·.buffptr)

/-- The entry points to a live data block at least as large as the size recorded beside the
pointer. -/
def EntryOk (h : Heap Obj) (e : AesdBufferEntry) : Prop :=
  ∃ p b, e.buffptr = some p ∧ h.cell p = some (.data b) ∧ e.size ≤ b.size ∧
    b.size ≤ kmallocMaxSize

/-- The contents of an entry. -/
def entryBytes (h : Heap Obj) (e : AesdBufferEntry) : List Byte := readBytes h e.buffptr 0 e.size

/-- The contents of the commands held, oldest first. -/
def Driver.commands (s : Driver) : List (List Byte) := s.circBuff.held.map (entryBytes s.heap)

/-- The bytes of the command being assembled. -/
def Driver.pending (s : Driver) : List Byte := entryBytes s.heap s.gEntVal

/-- The addresses that belong to the device when it holds the entries `q`. -/
def Driver.owned (s : Driver) (q : List AesdBufferEntry) : List ℕ :=
  s.gEnt.toList ++ (s.gEntVal.buffptr.toList ++ ptrs q)

/-- The invariant of the driver: it holds the entries `q`, and the running call owns the objects
at `extra`. -/
structure Inv (s : Driver) (q : List AesdBufferEntry) (extra : List ℕ) : Prop where
  ring : Represents s.circBuff q
  held_ok : ∀ e ∈ q, EntryOk s.heap e
  pending_ok : s.gEntVal = .zero ∨ EntryOk s.heap s.gEntVal
  gEnt_ok : ∃ g, s.gEnt = some g ∧ s.heap.cell g = some .entry
  owns : s.heap.Owns (extra ++ s.owned q)
  badFrees_eq : s.heap.badFrees = 0

/-! ## Entries -/

@[simp] lemma length_entryBytes (h : Heap Obj) (e : AesdBufferEntry) :
    (entryBytes h e).length = e.size := length_readBytes h _ _ _

@[simp] lemma entryBytes_zero (h : Heap Obj) : entryBytes h .zero = [] := rfl

/-- The pointer of an entry of a list is one of the pointers of the list. -/
lemma mem_ptrs {q : List AesdBufferEntry} {e : AesdBufferEntry} {p : ℕ} (he : e ∈ q)
    (hp : e.buffptr = some p) : p ∈ ptrs q := List.mem_filterMap.mpr ⟨e, he, hp⟩

/-- A valid entry stays valid, with the same contents, as long as its block is left alone. -/
lemma EntryOk.congr {h h' : Heap Obj} {e : AesdBufferEntry} (he : EntryOk h e)
    (hc : ∀ p, e.buffptr = some p → h'.cell p = h.cell p) :
    EntryOk h' e ∧ entryBytes h' e = entryBytes h e := by
  obtain ⟨p, b, hp, hcell, hsize, hmax⟩ := he
  refine ⟨⟨p, b, hp, (hc p hp).trans hcell, hsize, hmax⟩, readBytes_congr ?_ _ _⟩
  rw [hp]
  exact hc p hp

/-- A valid entry is not larger than the largest block. -/
lemma EntryOk.size_le {h : Heap Obj} {e : AesdBufferEntry} (he : EntryOk h e) :
    e.size ≤ kmallocMaxSize := by
  obtain ⟨p, b, -, -, hsize, hmax⟩ := he
  exact hsize.trans hmax

namespace Inv

variable {s : Driver} {q : List AesdBufferEntry} {extra : List ℕ}

/-- The entries held are the queue. -/
lemma held_eq (hI : Inv s q extra) : s.circBuff.held = q := hI.ring.held_eq

/-- The commands held. -/
lemma commands_eq (hI : Inv s q extra) : s.commands = q.map (entryBytes s.heap) := by
  rw [Driver.commands, hI.held_eq]

/-- The pending entry is not larger than the largest block. -/
lemma pending_size_le (hI : Inv s q extra) : s.gEntVal.size ≤ kmallocMaxSize := by
  rcases hI.pending_ok with hz | he
  · rw [hz]
    exact Nat.zero_le _
  · exact he.size_le

/-- The slots of a driver that hold no command have no size. -/
lemma map_size_unroll (hI : Inv s q extra) :
    s.circBuff.unroll.map (·.size) =
      List.replicate (10 - q.length) 0 ++ (q.map (entryBytes s.heap)).map List.length := by
  rw [hI.ring.unroll_eq, List.map_append, List.map_replicate, List.map_map]
  congr 1
  exact List.map_congr_left fun e _ => (length_entryBytes s.heap e).symm

/-- The device holds at most ten commands of at most the largest block size. -/
lemma sum_size_le (hI : Inv s q extra) :
    (q.map (·.size)).sum ≤ 10 * kmallocMaxSize := by
  have hle := List.sum_le_card_nsmul (q.map (·.size)) kmallocMaxSize fun n hn => by
    obtain ⟨e, he, rfl⟩ := List.mem_map.mp hn
    exact (hI.held_ok e he).size_le
  rw [List.length_map, smul_eq_mul] at hle
  exact hle.trans (Nat.mul_le_mul_right _ hI.ring.length_le)

/-- **Frame rule**: a heap in which the objects of the device are untouched, and which the
device and the call own together, keeps the invariant. -/
lemma frame {h : Heap Obj} {extra' : List ℕ} (hI : Inv s q extra)
    (hc : ∀ p ∈ s.owned q, h.cell p = s.heap.cell p) (ho : h.Owns (extra' ++ s.owned q))
    (hb : h.badFrees = 0) : Inv { s with heap := h } q extra' := by
  obtain ⟨g, hg, hcell⟩ := hI.gEnt_ok
  refine ⟨hI.ring, fun e he => ?_, ?_, ⟨g, hg, ?_⟩, ho, hb⟩
  · refine ((hI.held_ok e he).congr fun p hp => hc p ?_).1
    simp [Driver.owned, mem_ptrs he hp]
  · refine hI.pending_ok.imp_right fun he => (he.congr fun p hp => hc p ?_).1
    simp [Driver.owned, hp]
  · exact (hc g (by simp [Driver.owned, hg])).trans hcell

/-- Under the frame rule the commands and the pending bytes are unchanged. -/
lemma frame_bytes {h : Heap Obj} (hI : Inv s q extra)
    (hc : ∀ p ∈ s.owned q, h.cell p = s.heap.cell p) :
    q.map (entryBytes h) = q.map (entryBytes s.heap) ∧ entryBytes h s.gEntVal = s.pending := by
  constructor
  · refine List.map_congr_left fun e he => ((hI.held_ok e he).congr fun p hp => hc p ?_).2
    simp [Driver.owned, mem_ptrs he hp]
  · rcases hI.pending_ok with hz | he
    · rw [Driver.pending, hz, entryBytes_zero, entryBytes_zero]
    · refine (he.congr fun p hp => hc p ?_).2
      simp [Driver.owned, hp]

/-- An allocation keeps the invariant; the call owns the new object. -/
lemma malloc {a : ℕ} (hI : Inv s q extra) (obj : Obj) (ha : s.heap.cell a = none) :
    Inv { s with heap := s.heap.put a obj } q (a :: extra) := by
  refine hI.frame (fun p hp => Heap.cell_put_of_ne _ ?_) (hI.owns.malloc obj ha) hI.badFrees_eq
  rintro rfl
  exact hI.owns.not_mem ha (List.mem_append_right _ hp)

/-- Taking or releasing the lock keeps the invariant. -/
lemma set_lock (hI : Inv s q extra) (b : Bool) : Inv { s with lock := b } q extra :=
  ⟨hI.ring, hI.held_ok, hI.pending_ok, hI.gEnt_ok, hI.owns, hI.badFrees_eq⟩

end Inv

/-- **The invariant holds after initialisation**, with no command held. -/
lemma inv_initialDriver (g : ℕ) : Inv (initialDriver g) [] [] := by
  refine ⟨Represents.init, by simp, .inl rfl, ⟨g, rfl, Heap.cell_put_self _ _ _⟩, ?_, rfl⟩
  have howns : (initialDriver g).heap.Owns [g] :=
    Heap.Owns.empty.malloc Obj.entry (Heap.cell_empty g)
  simpa [Driver.owned, initialDriver, AesdBufferEntry.zero, ptrs] using howns

end Aesd
