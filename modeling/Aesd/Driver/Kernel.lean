import Aesd.Lib.Heap
import Aesd.Driver.CircularBuffer
import Mathlib.Data.Int.Basic

set_option relaxedAutoImplicit false
set_option autoImplicit false

/-!
# What the driver uses of the kernel

The kernel functions the driver calls, with their documented behaviour: the outcome of each call
(an allocation that fails, a user copy that stops early, a lock wait that a signal interrupts)
is chosen by the environment and comes in as an argument.

The kernel heap holds the entry structures and the data blocks of the driver. A data block has
a size and contents; its contents are given for every offset, so that a read past the end of the
block has a value, the one the memory there happens to have. `kmalloc` returns `NULL` or a block
distinct from all live ones, and never one larger than any configuration of the kernel allows. A
block of size `0` stands for `ZERO_SIZE_PTR`: it can be released, but a read through it faults.

## Main definitions

* `Aesd.Obj`, `Aesd.kmalloc`, `Aesd.blockAt`, `Aesd.readBytes`, `Aesd.store` — the kernel heap.
* `Aesd.mutexLockInterruptible` — the outcomes of a lock wait.
* `Aesd.FixedSizeLlseek` — `fixed_size_llseek`, as far as the driver relies on it.

## Main results

* `Aesd.readBytes_store_self`, `Aesd.readBytes_store_of_ne` — what a store changes.
-/

namespace Aesd

/-- A `char` of user data. -/
abbrev Byte := UInt8

/-- The character `'\n'`. -/
def newline : Byte := 10

/-! ## Integers and error numbers -/

/-- The value of a signed 64-bit integer (`loff_t`, `ssize_t`). -/
def signed64 (x : ℤ) : ℤ := Int.bmod x (2 ^ 64)

/-- The conversion of a signed integer to `size_t`. -/
def toSizeT (x : ℤ) : ℕ := (x % 2 ^ 64).toNat

/-- A value in the signed range is unchanged. -/
lemma signed64_of_lt {x : ℤ} (h0 : 0 ≤ x) (h : x < 2 ^ 63) : signed64 x = x := by
  rw [signed64, Int.bmod_eq_of_le] <;> omega

/-- A nonnegative `loff_t` keeps its value as a `size_t`. -/
lemma toSizeT_of_nonneg {x : ℤ} (h0 : 0 ≤ x) (h : x < 2 ^ 63) : toSizeT x = x.toNat := by
  rw [toSizeT, Int.emod_eq_of_lt h0 (by omega)]

def ENOMEM : ℤ := 12

def EFAULT : ℤ := 14

def EINVAL : ℤ := 22

def ENOTTY : ℤ := 25

def ERESTARTSYS : ℤ := 512

/-! ## The heap -/

/-- A data block: its size, and the bytes at each offset from its start, also past its end. -/
structure Block where
  size : ℕ
  bytes : ℕ → Byte

/-- What the driver allocates: entry structures and data blocks. -/
inductive Obj where
  | entry
  | data (b : Block)

/-- An upper bound of `KMALLOC_MAX_SIZE` over the configurations of the kernel: no larger block
is ever allocated. -/
def kmallocMaxSize : ℕ := 2 ^ 30

/-- `sizeof(struct aesd_buffer_entry)`. -/
def sizeofEntry : ℕ := 16

/-- `kmalloc(size, GFP_KERNEL)` for an object of that size, at the address the environment
chose; `NULL` if the environment chose none or the size is too large. -/
def kmalloc (h : Heap Obj) (size : ℕ) (choice : Ptr) (obj : Obj) : Ptr × Heap Obj :=
  if size ≤ kmallocMaxSize then h.malloc choice obj else (none, h)

/-- The data block at `p`; an empty one if there is none. -/
def blockAt (h : Heap Obj) (p : Ptr) : Block :=
  match p.bind h.cell with
  | some (.data b) => b
  | _ => ⟨0, fun _ => 0⟩

/-- The byte `*(p + i)`. -/
def byteAt (h : Heap Obj) (p : Ptr) (i : ℕ) : Byte := (blockAt h p).bytes i

/-- The `n` bytes from `p + off` on. -/
def readBytes (h : Heap Obj) (p : Ptr) (off n : ℕ) : List Byte :=
  (List.range n).map fun i => byteAt h p (off + i)

/-- Store bytes at `p + off`: the effect of `memcpy` and of `copy_from_user`. -/
def store (h : Heap Obj) (p off : ℕ) (bs : List Byte) : Heap Obj :=
  h.modify p fun
    | .data b => .data { b with
        bytes := fun i => if off ≤ i ∧ i < off + bs.length then bs.getD (i - off) 0 else b.bytes i }
    | .entry => .entry

/-- A failed `kmalloc` leaves the heap alone. -/
lemma kmalloc_none {h h' : Heap Obj} {size : ℕ} {choice : Ptr} {obj : Obj}
    (e : kmalloc h size choice obj = (none, h')) : h' = h := by
  unfold kmalloc at e
  split_ifs at e
  · exact Heap.malloc_none e
  · exact (Prod.mk.inj e).2.symm

/-- A successful `kmalloc` returns the address the environment chose, which was dead. -/
lemma kmalloc_some {h h' : Heap Obj} {size p : ℕ} {choice : Ptr} {obj : Obj}
    (e : kmalloc h size choice obj = (some p, h')) :
    size ≤ kmallocMaxSize ∧ choice = some p ∧ h.cell p = none ∧
      h' = h.put p obj := by
  unfold kmalloc at e
  split_ifs at e with hs
  · exact ⟨hs, Heap.malloc_some e⟩
  · exact absurd (Prod.mk.inj e).1 (by simp)

@[simp] lemma length_readBytes (h : Heap Obj) (p : Ptr) (off n : ℕ) :
    (readBytes h p off n).length = n := by
  simp [readBytes]

/-- The block at a live data block. -/
lemma blockAt_data {h : Heap Obj} {p : ℕ} {b : Block} (hp : h.cell p = some (.data b)) :
    blockAt h (some p) = b := by
  simp [blockAt, hp]

/-- The bytes at a live data block. -/
lemma byteAt_data {h : Heap Obj} {p : ℕ} {b : Block} (hp : h.cell p = some (.data b)) (i : ℕ) :
    byteAt h (some p) i = b.bytes i := by
  rw [byteAt, blockAt_data hp]

/-- The bytes at a pointer only depend on what lives there. -/
lemma readBytes_congr {h h' : Heap Obj} {p : Ptr} (hp : p.bind h'.cell = p.bind h.cell)
    (off n : ℕ) : readBytes h' p off n = readBytes h p off n := by
  simp only [readBytes, byteAt, blockAt, hp]

/-- Byte `i` of a read. -/
lemma getElem_readBytes {h : Heap Obj} {p : Ptr} {off n i : ℕ}
    (hi : i < (readBytes h p off n).length) : (readBytes h p off n)[i] = byteAt h p (off + i) := by
  simp [readBytes]

/-- Reading from an offset is reading from the start and dropping. -/
lemma readBytes_drop_take (h : Heap Obj) (p : Ptr) {off n m : ℕ} (hn : off + m ≤ n) :
    ((readBytes h p 0 n).drop off).take m = readBytes h p off m := by
  apply List.ext_getElem (by simp; omega)
  intro i hi hi'
  rw [List.getElem_take, List.getElem_drop, getElem_readBytes, getElem_readBytes, Nat.zero_add]

/-- The start of a read is a shorter read. -/
lemma readBytes_take (h : Heap Obj) (p : Ptr) (off : ℕ) {n m : ℕ} (hm : m ≤ n) :
    (readBytes h p off n).take m = readBytes h p off m := by
  rw [readBytes, readBytes, ← List.map_take, List.take_range, Nat.min_eq_left hm]

/-- A store leaves a data block of the same size there. -/
lemma cell_store_self {h : Heap Obj} {p : ℕ} {b : Block} (off : ℕ) (bs : List Byte)
    (hp : h.cell p = some (.data b)) :
    (store h p off bs).cell p = some (.data { b with
      bytes := fun i => if off ≤ i ∧ i < off + bs.length then bs.getD (i - off) 0 else b.bytes i }) := by
  rw [store, Heap.cell_modify_self, hp]
  rfl

/-- A store touches no other object. -/
lemma cell_store_of_ne {h : Heap Obj} {p q : ℕ} (off : ℕ) (bs : List Byte) (hq : q ≠ p) :
    (store h p off bs).cell q = h.cell q := Heap.cell_modify_of_ne _ hq

/-! ## The lock -/

/-- The outcomes of a wait for a mutex. -/
inductive LockWait where
  | interrupted
  | blocked
  | taken
deriving DecidableEq

/-- `mutex_lock_interruptible`: non-zero without the lock if a signal interrupts the wait;
otherwise the lock if it is free, and no return while another call holds it. -/
def mutexLockInterruptible (held interrupted : Bool) : LockWait :=
  if interrupted then .interrupted else if held then .blocked else .taken

/-! ## Seeking -/

/-- `SEEK_SET`. -/
def seekSet : ℤ := 0

/-- `fixed_size_llseek(filp, offset, whence, size)`: the return value and the file position
afterwards, from the position before. An absolute seek accepts exactly the positions from `0`
to the size. -/
structure FixedSizeLlseek where
  call : ℤ → ℤ → ℤ → ℤ → ℤ × ℤ
  seek_set : ∀ fPos offset size, 0 ≤ offset → offset ≤ size →
    call fPos offset seekSet size = (offset, offset)
  seek_set_invalid : ∀ fPos offset size, ¬(0 ≤ offset ∧ offset ≤ size) →
    call fPos offset seekSet size = (-EINVAL, fPos)

/-- An instance to evaluate calls with: a seek is relative to `0`, the position or the size, and
every `whence` accepts exactly the positions from `0` to the size. -/
def fixedSizeLlseek : FixedSizeLlseek where
  call fPos offset whence size :=
    let target :=
      if whence = seekSet then offset else if whence = 1 then fPos + offset else size + offset
    if whence ∈ [seekSet, 1, 2] ∧ 0 ≤ target ∧ target ≤ size then (target, target)
    else (-EINVAL, fPos)
  seek_set fPos offset size h0 h := by simp [h0, h]
  seek_set_invalid fPos offset size h := by
    rw [not_and_or] at h
    rcases h with h | h <;> simp [h]

end Aesd
