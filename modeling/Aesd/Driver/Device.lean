import Aesd.Driver.Kernel

set_option relaxedAutoImplicit false
set_option autoImplicit false

/-!
# The device operations

The file operations of `aesd-char-driver/main.c`. A call runs to its return before the next one
starts: the operations hold the lock of the device while they use it, and `aesd_llseek`, which
does not take it, only reads the slots. A call that waits for a lock nobody will release does
not return, which is the result `none`; neither does a write that faults, and it has taken the
lock.

A write assembles a command: it moves the pending bytes of earlier writes and the user's bytes
into a new block, and hands the block to the circular buffer if the newline scan finds a
newline, or keeps it pending otherwise. The scan examines at least one byte, so it faults if the
new block is empty: nothing is pending and the user's buffer is empty. A read returns bytes of one
command. `AESDCHAR_IOCSEEKTO` moves the file position to a byte of a command.

The two entry structures are the persistent one of the device and the temporary one of a write.
Each is only used through one pointer, so its contents are kept beside the pointer and the heap
records that it is allocated.

## Main definitions

* `Aesd.Driver` — the device structure together with the kernel heap.
* `Aesd.aesdRead`, `Aesd.aesdWrite`, `Aesd.aesdLlseek`, `Aesd.aesdIoctl` — the operations.
* `Aesd.Call`, `Aesd.exec` — one call of any operation with any arguments and outcomes.
* `Aesd.aesdWriteFault`, `Aesd.execFault` — the device after a call that faults.
* `Aesd.CallStep`, `Aesd.DeviceStep` — the calls that return, and all calls.
-/

namespace Aesd

/-- `struct aesd_dev` and the kernel heap: the circular buffer, the pointer `g_ent` to the
persistent entry structure, the contents of that structure, and whether `lock` is held. -/
structure Driver where
  circBuff : AesdCircularBuffer
  gEnt : Ptr
  gEntVal : AesdBufferEntry
  lock : Bool
  heap : Heap Obj

/-- What a call gives back: its return value, the file position afterwards and the bytes it
copied to the user's buffer. -/
structure Reply where
  ret : ℤ
  fPos : ℤ
  data : List Byte := []
deriving DecidableEq, Repr

/-- `mutex_unlock(&dev->lock)`. -/
def Driver.unlock (s : Driver) : Driver := { s with lock := false }

/-- The device while a call holds the lock. -/
def Driver.locked (s : Driver) : Driver := { s with lock := true }

/-- Locking and unlocking a device whose lock is free changes nothing. -/
lemma Driver.unlock_locked (s : Driver) (hlock : s.lock = false) : s.locked.unlock = s := by
  cases s
  simp_all [Driver.locked, Driver.unlock]

/-! ## Reading -/

/-- The outcomes of the kernel calls inside one `aesd_read`: whether the lock wait is
interrupted, and how many bytes `copy_to_user` leaves uncopied. -/
structure ReadEnv where
  interrupted : Bool
  uncopied : ℕ

/-- The range `aesd_read` passes to `copy_to_user`: the pointer, the offset from it and the
number of bytes; `none` if there is nothing to read at the position. -/
def aesdReadRange (s : Driver) (fPos : ℤ) (count : ℕ) : Option (Ptr × ℕ × ℕ) :=
  match aesdCircularBufferFindEntryOffsetForFpos s.circBuff (toSizeT fPos) with
  | none => none
  | some (i, retOffset) =>
    let retEnt := s.circBuff.slot i
    some (retEnt.buffptr, retOffset, min count (sizeT (retEnt.size + 2 ^ 64 - retOffset)))

/-- The body of `aesd_read` under the lock. -/
def aesdReadLocked (s : Driver) (fPos : ℤ) (count : ℕ) (env : ReadEnv) : Reply :=
  match aesdReadRange s fPos count with
  | none => { ret := 0, fPos }
  | some (p, retOffset, n) =>
    let copiedCount := n - min env.uncopied n
    { ret := signed64 copiedCount
      fPos := signed64 (fPos + copiedCount)
      data := readBytes s.heap p retOffset copiedCount }

/-- `aesd_read`. -/
def aesdRead (s : Driver) (fPos : ℤ) (count : ℕ) (env : ReadEnv) : Option (Reply × Driver) :=
  match mutexLockInterruptible s.lock env.interrupted with
  | .interrupted => some ({ ret := -ERESTARTSYS, fPos }, s)
  | .blocked => none
  | .taken => some (aesdReadLocked s.locked fPos count env, s.locked.unlock)

/-! ## Writing -/

/-- `MAX_RW_COUNT`: the most bytes the VFS passes to one write. -/
def maxRwCount : ℕ := 0x7ffff000

/-- The user's buffer of a write, as the VFS passes it. -/
structure UserBuf where
  bytes : List Byte
  length_le : bytes.length ≤ maxRwCount

/-- The outcomes of the kernel calls inside one `aesd_write`: whether the lock wait is
interrupted, the addresses of the two allocations (`none` for a failure), the contents of the
memory at the new data block and after it, and how many bytes `copy_from_user` leaves
uncopied. -/
structure WriteEnv where
  interrupted : Bool
  entryPtr : Ptr
  dataPtr : Ptr
  memory : ℕ → Byte
  uncopied : ℕ

/-- The number of bytes `copy_from_user` copies. -/
def WriteEnv.copied (env : WriteEnv) (buf : UserBuf) : ℕ :=
  buf.bytes.length - min env.uncopied buf.bytes.length

/-- What `copy_from_user` stores: the bytes it copies, and zeros for those it leaves uncopied. -/
def WriteEnv.fromUser (env : WriteEnv) (buf : UserBuf) : List Byte :=
  buf.bytes.take (env.copied buf) ++ List.replicate (buf.bytes.length - env.copied buf) 0

/-- The newline scan `for (int i = 0; i <= l_ent->size; i++)`, with the iterations left: whether
it finds a newline, and the indices of the bytes it examines. -/
def newlineLoop (bytes : ℕ → Byte) (size : ℕ) : ℕ → ℕ → Bool × List ℕ
  | 0, _ => (false, [])
  | fuel + 1, i =>
    if i ≤ size then
      if bytes i = newline then (true, [i])
      else
        let rest := newlineLoop bytes size fuel (i + 1)
        (rest.1, i :: rest.2)
    else (false, [])

/-- The newline scan over an entry of the given size: the loop variable runs from `0` to the
size. -/
def newlineScan (bytes : ℕ → Byte) (size : ℕ) : Bool × List ℕ :=
  newlineLoop bytes size (size + 1) 0

/-- The newline scan over an entry with the block `b`. It starts with the first byte, so it faults
if the block is empty. -/
def scanBlock (b : Block) (size : ℕ) : Option Bool :=
  if b.size = 0 then none else some (newlineScan b.bytes size).1

/-- Move the pending bytes into the new block at `p` and release the old block; the result is
the size of the new entry so far. -/
def movePending (s : Driver) (p : ℕ) : ℕ × Driver :=
  if s.gEntVal.buffptr = none then (0, s)
  else
    let heap := store s.heap p 0 (readBytes s.heap s.gEntVal.buffptr 0 s.gEntVal.size)
    (s.gEntVal.size, { s with heap := heap.free s.gEntVal.buffptr, gEntVal := .zero })

/-- Hand the entry to the circular buffer and release the command it overwrites. -/
def commitEntry (s : Driver) (lEnt : AesdBufferEntry) : Driver :=
  let call := aesdCircularBufferAddEntry s.circBuff lEnt
  { s with circBuff := call.2, heap := s.heap.free call.1 }

/-- Keep the entry pending for the next write. -/
def keepEntry (s : Driver) (lEnt : AesdBufferEntry) : Driver := { s with gEntVal := lEnt }

/-- `aesd_write` from the second allocation on: the entry structure is at `l`, the data block at
`p`. The newline scan is a parameter; if it faults, the result is the device as it is then. -/
def writeAllocated (scan : Block → ℕ → Option Bool) (s : Driver) (fPos : ℤ) (buf : UserBuf)
    (env : WriteEnv) (l p : ℕ) : Except Driver (Reply × Driver) :=
  let gEntStartSize := s.gEntVal.size
  let moved := movePending s p
  let copiedCount := env.copied buf
  let s := { moved.2 with heap := store moved.2.heap p gEntStartSize (env.fromUser buf) }
  let lEnt : AesdBufferEntry := ⟨some p, sizeT (moved.1 + copiedCount)⟩
  match scan (blockAt s.heap lEnt.buffptr) lEnt.size with
  | none => .error s
  | some newlineFound =>
    let s := if newlineFound then commitEntry s lEnt else keepEntry s lEnt
    .ok ({ ret := signed64 copiedCount, fPos := signed64 (fPos + copiedCount) },
      { s with heap := s.heap.free (some l) })

/-- The body of `aesd_write` under the lock. -/
def aesdWriteLocked (scan : Block → ℕ → Option Bool) (s : Driver) (fPos : ℤ) (buf : UserBuf)
    (env : WriteEnv) : Except Driver (Reply × Driver) :=
  match kmalloc s.heap sizeofEntry env.entryPtr .entry with
  | (none, heap) => .ok ({ ret := -ENOMEM, fPos }, { s with heap })
  | (some l, heap) =>
    let size := sizeT (buf.bytes.length + s.gEntVal.size)
    match kmalloc heap size env.dataPtr (.data ⟨size, env.memory⟩) with
    | (none, heap) => .ok ({ ret := -ENOMEM, fPos }, { s with heap := heap.free (some l) })
    | (some p, heap) => writeAllocated scan { s with heap } fPos buf env l p

/-- `aesd_write`, for any newline scan. -/
def aesdWriteWith (scan : Block → ℕ → Option Bool) (s : Driver) (fPos : ℤ) (buf : UserBuf)
    (env : WriteEnv) : Option (Reply × Driver) :=
  match mutexLockInterruptible s.lock env.interrupted with
  | .interrupted => some ({ ret := -ERESTARTSYS, fPos }, s)
  | .blocked => none
  | .taken =>
    match aesdWriteLocked scan s.locked fPos buf env with
    | .error _ => none
    | .ok done => some (done.1, done.2.unlock)

/-- `aesd_write`. -/
def aesdWrite : Driver → ℤ → UserBuf → WriteEnv → Option (Reply × Driver) :=
  aesdWriteWith scanBlock

/-- The device after an `aesd_write` that faults: the call is over and the lock stays held. -/
def aesdWriteFault (s : Driver) (fPos : ℤ) (buf : UserBuf) (env : WriteEnv) : Option Driver :=
  match mutexLockInterruptible s.lock env.interrupted with
  | .taken =>
    match aesdWriteLocked scanBlock s.locked fPos buf env with
    | .error s => some s
    | .ok _ => none
  | _ => none

/-! ## Seeking -/

/-- `aesd_llseek`: the return value and the file position afterwards. The size of the device is
summed over the slots in array order. -/
def aesdLlseek (fsl : FixedSizeLlseek) (s : Driver) (fPos offset whence : ℤ) : ℤ × ℤ :=
  let totalBufferSize : ℤ := s.circBuff.entry.toList.foldl
    (fun total e => if e.buffptr = none then total else signed64 (total + e.size)) 0
  fsl.call fPos offset whence totalBufferSize

/-- The loop of `aesd_adjust_file_offset` over the slots in array order, from slot `index` on:
the offset to seek to, or `none` for its early `return -EINVAL`. -/
def adjustLoop (writeCmd writeCmdOffset : ℕ) : List AesdBufferEntry → ℕ → ℤ → Option ℤ
  | [], _, totalOffset => some totalOffset
  | e :: es, index, totalOffset =>
    if index = writeCmd then
      if e.buffptr = none then none
      else if e.size ≤ writeCmdOffset then none
      else some (signed64 (totalOffset + writeCmdOffset))
    else if e.buffptr = none then some totalOffset
    else adjustLoop writeCmd writeCmdOffset es (index + 1) (signed64 (totalOffset + e.size))

/-- `aesd_adjust_file_offset`. The early `return -EINVAL` of the loop leaves without
unlocking. -/
def aesdAdjustFileOffset (fsl : FixedSizeLlseek) (s : Driver) (fPos : ℤ) (interrupted : Bool)
    (writeCmd writeCmdOffset : ℕ) : Option (Reply × Driver) :=
  if maxWriteOperationsSupported < writeCmd then some ({ ret := -EINVAL, fPos }, s)
  else
    match mutexLockInterruptible s.lock interrupted with
    | .interrupted => some ({ ret := -ERESTARTSYS, fPos }, s)
    | .blocked => none
    | .taken =>
      let s := s.locked
      match adjustLoop writeCmd writeCmdOffset s.circBuff.entry.toList 0 0 with
      | none => some ({ ret := -EINVAL, fPos }, s)
      | some totalOffset =>
        let seek := aesdLlseek fsl s fPos totalOffset seekSet
        some ({ ret := seek.1, fPos := seek.2 }, s.unlock)

/-- `struct aesd_seekto`. -/
structure AesdSeekto where
  writeCmd : UInt32
  writeCmdOffset : UInt32
deriving DecidableEq, Repr

/-- `AESD_IOC_MAGIC`. -/
def aesdIocMagic : UInt32 := 0x16

/-- `AESDCHAR_IOC_MAXNR`. -/
def aesdcharIocMaxnr : UInt32 := 1

/-- `AESDCHAR_IOCSEEKTO`, that is `_IOWR(AESD_IOC_MAGIC, 1, struct aesd_seekto)`. -/
def aesdcharIocseekto : UInt32 :=
  (3 : UInt32) <<< 30 ||| (8 : UInt32) <<< 16 ||| aesdIocMagic <<< 8 ||| 1

/-- `_IOC_TYPE(cmd)`. -/
def iocType (cmd : UInt32) : UInt32 := cmd >>> 8 &&& 0xff

/-- `_IOC_NR(cmd)`. -/
def iocNr (cmd : UInt32) : UInt32 := cmd &&& 0xff

/-- The outcomes of the kernel calls inside one `aesd_ioctl`: whether the lock wait is
interrupted, and what `copy_from_user` reads, `none` if it does not copy the whole argument. -/
structure IoctlEnv where
  interrupted : Bool
  seekto : Option AesdSeekto

/-- `aesd_ioctl`. -/
def aesdIoctl (fsl : FixedSizeLlseek) (s : Driver) (fPos : ℤ) (cmd : UInt32) (env : IoctlEnv) :
    Option (Reply × Driver) :=
  if iocType cmd ≠ aesdIocMagic then some ({ ret := -ENOTTY, fPos }, s)
  else if aesdcharIocMaxnr < iocNr cmd then some ({ ret := -ENOTTY, fPos }, s)
  else if cmd = aesdcharIocseekto then
    match env.seekto with
    | none => some ({ ret := EFAULT, fPos }, s)
    | some seekto =>
      aesdAdjustFileOffset fsl s fPos env.interrupted seekto.writeCmd.toNat
        seekto.writeCmdOffset.toNat
  else some ({ ret := -ENOTTY, fPos }, s)

/-! ## Calls -/

/-- A call of a file operation, with its arguments and the outcomes of the kernel calls in it.
The file position is an argument: it belongs to the open file the call is made through. -/
inductive Call where
  | read (fPos : ℤ) (count : ℕ) (env : ReadEnv)
  | write (fPos : ℤ) (buf : UserBuf) (env : WriteEnv)
  | llseek (fPos offset whence : ℤ)
  | ioctl (fPos : ℤ) (cmd : UInt32) (env : IoctlEnv)

/-- Run one call: its reply and the device afterwards, `none` if it never returns. -/
def exec (fsl : FixedSizeLlseek) (s : Driver) : Call → Option (Reply × Driver)
  | .read fPos count env => aesdRead s fPos count env
  | .write fPos buf env => aesdWrite s fPos buf env
  | .llseek fPos offset whence =>
    let seek := aesdLlseek fsl s fPos offset whence
    some ({ ret := seek.1, fPos := seek.2 }, s)
  | .ioctl fPos cmd env => aesdIoctl fsl s fPos cmd env

/-- The device after a call that faults. -/
def execFault (s : Driver) : Call → Option Driver
  | .write fPos buf env => aesdWriteFault s fPos buf env
  | _ => none

/-- The step relation of the device: one call with its reply. -/
def CallStep (fsl : FixedSizeLlseek) (s : Driver) (c : Call × Reply) (s' : Driver) : Prop :=
  exec fsl s c.1 = some (c.2, s')

/-- The steps of the device with the calls that fault, which have no reply. -/
inductive DeviceStep (fsl : FixedSizeLlseek) (s : Driver) : Call × Option Reply → Driver → Prop
  | returns {c : Call} {reply : Reply} {s' : Driver} (h : exec fsl s c = some (reply, s')) :
      DeviceStep fsl s (c, some reply) s'
  | faults {c : Call} {s' : Driver} (h : execFault s c = some s') : DeviceStep fsl s (c, none) s'

end Aesd
