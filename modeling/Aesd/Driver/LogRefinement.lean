import Aesd.Driver.Calls
import Aesd.Lib.CommandLog

set_option relaxedAutoImplicit false
set_option autoImplicit false

/-!
# The device refines a log of commands

The contents of the device are what is left of its state when the addresses are forgotten. They
are the window of a command log: the commands held are the last ten committed, and the offsets
and the flag of the buffer only depend on how many were committed. A write that stores appends
its piece to the log.

## Main definitions

* `Aesd.Contents`, `Aesd.Driver.contents` — the state of the device without addresses.
* `Aesd.logContents` — the contents for a log of commands.
* `Aesd.committedBy` — the command a step commits to the ring.

## Main results

* `Aesd.Stored.contents_eq` — a write that stores is an append to the log.
* `Aesd.Stored.committedBy_eq` — what it commits.
-/

namespace Aesd

/-- The state of the device without addresses: the commands held, the pending bytes, and the
offsets and the flag of the circular buffer. -/
@[ext]
structure Contents where
  commands : List (List Byte)
  pending : List Byte
  inOffs : ℕ
  outOffs : ℕ
  full : Bool

/-- The contents of the device. -/
def Driver.contents (s : Driver) : Contents where
  commands := s.commands
  pending := s.pending
  inOffs := s.circBuff.inOffs
  outOffs := s.circBuff.outOffs
  full := s.circBuff.full

/-- The contents of a device with the given history. -/
def logContents (d : CommandLog Byte) : Contents where
  commands := d.window 10
  pending := d.pending
  inOffs := d.committed.length % 10
  outOffs := if 10 ≤ d.committed.length then d.committed.length % 10 else 0
  full := 10 ≤ d.committed.length

/-- The command that a step from `s` to `s'` commits to the ring: if `in_offs` moves, the contents
of the slot it was at. -/
def committedBy (s s' : Driver) : Option (List Byte) :=
  if s'.circBuff.inOffs = s.circBuff.inOffs then none
  else some (entryBytes s'.heap (s'.circBuff.slot s.circBuff.inOffs))

variable {s s' : Driver} {d : CommandLog Byte}

/-- The initialised device has no history. -/
lemma contents_initialDriver (g : ℕ) : (initialDriver g).contents = logContents .empty := rfl

/-- Nothing is committed while the ring stays as it is. -/
lemma committedBy_of_eq (h : s'.circBuff = s.circBuff) : committedBy s s' = none := by
  rw [committedBy, if_pos (by rw [h])]

/-- The next slot is another one. -/
lemma inOffs_addEntry_ne (buffer : AesdCircularBuffer) (e : AesdBufferEntry) :
    (aesdCircularBufferAddEntry buffer e).2.inOffs ≠ buffer.inOffs := by
  rw [inOffs_addEntry]
  split_ifs <;> omega

namespace Stored

variable {acc : List Byte} {found : Bool}

/-- **What a write commits**: the accumulated bytes, if the newline scan found a newline. -/
lemma committedBy_eq (h : Stored s acc found s') :
    committedBy s s' = if found then some acc else none := by
  obtain ⟨p, hcirc⟩ := h.circBuff_eq
  cases found with
  | true =>
    have hmoved : s'.circBuff.inOffs ≠ s.circBuff.inOffs := by
      rw [hcirc]
      exact inOffs_addEntry_ne _ _
    rw [committedBy, if_neg hmoved, h.slot_eq rfl]
    rfl
  | false => exact committedBy_of_eq hcirc

/-- **A write that stores is an append to the log.** -/
lemma contents_eq (hd : s.contents = logContents d) {piece : List Byte}
    (h : Stored s (s.pending ++ piece) found s') :
    s'.contents = logContents (d.append piece found) := by
  obtain ⟨p, hcirc⟩ := h.circBuff_eq
  obtain ⟨q', hI'⟩ := h.inv
  have hcomm : s.commands = d.window 10 := congrArg Contents.commands hd
  have hpend : s.pending = d.pending := congrArg Contents.pending hd
  have hin : s.circBuff.inOffs = d.committed.length % 10 := congrArg Contents.inOffs hd
  have hout : s.circBuff.outOffs = _ := congrArg Contents.outOffs hd
  have hfull : s.circBuff.full = decide (10 ≤ d.committed.length) := congrArg Contents.full hd
  cases found with
  | false =>
    refine Contents.ext (h.commands_eq.trans hcomm) (h.pending_eq.trans ?_) ?_ ?_ ?_
    · rw [hpend]
      rfl
    · exact (congrArg _ hcirc).trans hin
    · exact (congrArg _ hcirc).trans hout
    · exact (congrArg _ hcirc).trans hfull
  | true =>
    have hlen : (d.append piece true).committed.length = d.committed.length + 1 := by
      simp [CommandLog.append]
    have hin' : s'.circBuff.inOffs = (d.committed.length + 1) % 10 := by
      rw [hcirc, if_pos rfl, inOffs_addEntry, hin]
      split_ifs <;> omega
    have hfull' : s'.circBuff.full = decide (10 ≤ d.committed.length + 1) := by
      rw [hcirc, if_pos rfl, full_addEntry, hfull, hin, Bool.eq_iff_iff]
      simp only [Bool.or_eq_true, decide_eq_true_eq, beq_iff_eq]
      omega
    have hout' : s'.circBuff.outOffs =
        if 10 ≤ d.committed.length + 1 then (d.committed.length + 1) % 10 else 0 := by
      rw [hI'.ring.outOffs_eq, hin', hfull']
      simp only [decide_eq_true_eq]
    refine Contents.ext (h.commands_eq.trans ?_) h.pending_eq ?_ ?_ ?_
    · rw [if_pos rfl, hcomm, hpend]
      exact CircularList.rtake_rtake_append _ _ _
    · exact hin'.trans (by rw [← hlen]; rfl)
    · exact hout'.trans (by rw [← hlen]; rfl)
    · exact hfull'.trans (by rw [← hlen]; rfl)

end Stored

end Aesd
