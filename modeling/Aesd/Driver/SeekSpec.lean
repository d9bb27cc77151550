import Aesd.Driver.ReadSpec

set_option relaxedAutoImplicit false
set_option autoImplicit false

/-!
# What one seek does

The seek functions walk the slots in array order, from slot `0` on, while a read walks them from
`in_offs` on. In array order the slots that hold a command come first, and the others are zero.

## Main definitions

* `Aesd.Driver.slots` — the entries held, in array order.
* `Aesd.Driver.slotPos` — the position the seek functions give to a byte of a slot.
* `Aesd.Driver.totalBufferSize` — the size that `aesd_llseek` passes on.

## Main results

* `Aesd.aesdAdjustFileOffset_spec` — the outcome of a seek to a byte of a command, with a free
  lock.
* `Aesd.aesdIoctl_state` — what an ioctl changes.
-/

namespace Aesd

variable {s s' : Driver} {q : List AesdBufferEntry} {extra : List ℕ}

/-! ## The slots in array order -/

/-- The entries held, in array order. -/
def Driver.slots (s : Driver) : List AesdBufferEntry :=
  s.circBuff.entry.toList.take s.circBuff.count

/-- The sum of the sizes of the slots before slot `i`, in array order. -/
def Driver.slotPos (s : Driver) (i : ℕ) : ℕ := ((s.slots.take i).map (·.size)).sum

/-- In array order the slots that hold an entry come first, and the others are zero.

**Proof sketch.** In a buffer that is not full `in_offs` is the number of entries, so reading
from there passes the other slots first, all zero. In a full buffer there are no other slots. -/
lemma Represents.entry_eq {buffer : AesdCircularBuffer} (h : Represents buffer q) :
    buffer.entry.toList =
      buffer.entry.toList.take buffer.count ++ List.replicate (10 - buffer.count) .zero := by
  have hcount := h.count_eq
  have hlen := h.length_le
  rcases Nat.lt_or_ge q.length 10 with hq | hq
  · have hunroll := h.unroll_eq
    rw [AesdCircularBuffer.unroll, h.inOffs_eq hq,
      List.rotate_eq_drop_append_take (by simp; omega)] at hunroll
    have hdrop := (List.append_inj hunroll (by simp)).1
    rw [hcount, ← hdrop, List.take_append_drop]
  · rw [hcount, show 10 - q.length = 0 by omega, List.replicate_zero, List.append_nil,
      List.take_of_length_le (by simp; omega)]

/-- The slots that hold an entry are the queue, rotated once the buffer has wrapped.

**Proof sketch.** Unrolling from `in_offs` and then from `10 - in_offs` gives the array back; in
a buffer that is not full the array starts with the queue. -/
lemma Represents.take_entry_eq {buffer : AesdCircularBuffer} (h : Represents buffer q) :
    buffer.entry.toList.take buffer.count =
      if buffer.full then q.rotate (10 - buffer.inOffs) else q := by
  have hcount := h.count_eq
  have hlen := h.length_le
  have hin := h.inOffs_lt
  have hunroll := h.unroll_eq
  rw [AesdCircularBuffer.unroll] at hunroll
  split_ifs with hfull
  · have hq := h.full_iff.mp hfull
    rw [hq, Nat.sub_self, List.replicate_zero, List.nil_append] at hunroll
    rw [hcount, List.take_of_length_le (by rw [length_entry]; omega), ← hunroll,
      List.rotate_rotate, show buffer.inOffs + (10 - buffer.inOffs) = buffer.entry.toList.length by
        rw [length_entry]; omega, List.rotate_length]
  · have hq : q.length < 10 := by
      rw [h.full_iff] at hfull
      omega
    rw [h.inOffs_eq hq, List.rotate_eq_drop_append_take (by rw [length_entry]; omega)] at hunroll
    rw [hcount]
    exact (List.append_inj hunroll (by simp)).2

namespace Inv

/-- The slots that hold an entry hold the entries of the queue. -/
lemma slots_perm (hI : Inv s q extra) : s.slots.Perm q := by
  have hperm := unroll_perm s.circBuff
  rw [hI.ring.entry_eq, hI.ring.unroll_eq, ← hI.ring.count_eq] at hperm
  exact ((List.perm_append_right_iff _).mp (List.perm_append_comm.trans hperm)).symm

lemma length_slots (hI : Inv s q extra) : s.slots.length = q.length := hI.slots_perm.length_eq

/-- The slots that hold an entry point to live blocks. -/
lemma slots_ok (hI : Inv s q extra) : ∀ e ∈ s.slots, EntryOk s.heap e := fun e he =>
  hI.held_ok e (hI.slots_perm.mem_iff.mp he)

/-- The bytes in the slots are the bytes of the commands held. -/
lemma sum_slots (hI : Inv s q extra) :
    (s.slots.map (·.size)).sum = s.commands.flatten.length := by
  rw [List.length_flatten, hI.map_length_commands]
  exact (hI.slots_perm.map _).sum_eq

/-- The array of the buffer. -/
lemma entry_eq (hI : Inv s q extra) :
    s.circBuff.entry.toList = s.slots ++ List.replicate (10 - s.slots.length) .zero := by
  rw [hI.length_slots, ← hI.ring.count_eq]
  exact hI.ring.entry_eq

end Inv

/-! ## The loops of the seek functions -/

/-- Adding up the sizes of the slots, as `aesd_llseek` does. -/
lemma foldl_size_eq (es : List AesdBufferEntry) (hz : ∀ e ∈ es, e.buffptr = none → e.size = 0)
    (total : ℕ) (hsum : total + (es.map (·.size)).sum < 2 ^ 63) :
    es.foldl (fun total e => if e.buffptr = none then total else signed64 (total + e.size))
      (total : ℤ) = ((total + (es.map (·.size)).sum : ℕ) : ℤ) := by
  induction es generalizing total with
  | nil => simp
  | cons e es ih =>
    simp only [List.map_cons, List.sum_cons] at hsum
    have hnext : (if e.buffptr = none then (total : ℤ) else signed64 (total + e.size)) =
        ((total + e.size : ℕ) : ℤ) := by
      split_ifs with he
      · rw [hz e (by simp) he, Nat.add_zero]
      · rw [signed64_of_lt (by omega) (by omega), Int.natCast_add]
    rw [List.foldl_cons, hnext, ih (fun e he => hz e (by simp [he])) _ (by omega), List.map_cons,
      List.sum_cons, Nat.add_assoc]

/-- The loop of `aesd_adjust_file_offset`, from slot `idx` on.

**Proof sketch.** Induction on the slots that hold an entry; the first slot after them is zero,
where the loop stops. -/
lemma adjustLoop_eq (w off : ℕ) (filled : List AesdBufferEntry) (k idx total : ℕ)
    (hne : ∀ e ∈ filled, e.buffptr ≠ none) (hidx : idx ≤ w)
    (hsum : total + (filled.map (·.size)).sum + off < 2 ^ 63) :
    adjustLoop w off (filled ++ List.replicate k .zero) idx total =
      if w - idx < filled.length ∧ off < (filled.getD (w - idx) .zero).size then
        some ((total + ((filled.take (w - idx)).map (·.size)).sum + off : ℕ) : ℤ)
      else if w - idx < filled.length + min k 1 then none
      else some ((total + (filled.map (·.size)).sum : ℕ) : ℤ) := by
  induction filled generalizing idx total with
  | nil =>
    rw [if_neg (by simp), List.nil_append, List.length_nil, List.map_nil, List.sum_nil]
    cases k with
    | zero =>
      rw [if_neg (by simp)]
      rfl
    | succ k =>
      have hnull : AesdBufferEntry.zero.buffptr = none := rfl
      rw [List.replicate_succ, adjustLoop, if_pos hnull, if_pos hnull]
      by_cases h : idx = w
      · rw [if_pos h, if_pos (by omega)]
      · rw [if_neg h, if_neg (by omega)]
        rfl
  | cons e es ih =>
    simp only [List.map_cons, List.sum_cons] at hsum
    have he : e.buffptr ≠ none := hne e (by simp)
    rw [List.cons_append, adjustLoop]
    by_cases h : idx = w
    · subst h
      rw [if_pos rfl, if_neg he, Nat.sub_self, List.getD_cons_zero, List.take_zero, List.map_nil,
        List.sum_nil]
      by_cases hoff : e.size ≤ off
      · rw [if_pos hoff, if_neg (by omega), if_pos (by simp)]
      · rw [if_neg hoff, if_pos (by simp; omega), signed64_of_lt (by omega) (by omega)]
        simp
    · obtain ⟨d, hd⟩ : ∃ d, w - idx = d + 1 := ⟨w - idx - 1, by omega⟩
      have hd' : w - (idx + 1) = d := by omega
      rw [if_neg h, if_neg he, signed64_of_lt (by omega) (by omega), ← Int.natCast_add,
        ih (idx + 1) (total + e.size) (fun e' he' => hne e' (by simp [he'])) (by omega) (by omega),
        hd, hd', List.getD_cons_succ, List.take_succ_cons, List.map_cons, List.map_cons,
        List.sum_cons, List.sum_cons, List.length_cons]
      congr 2 <;> simp <;> omega

/-! ## Whole seeks -/

/-- `write_cmd` and `write_cmd_offset` name a byte of a slot. -/
def Driver.NamesByte (s : Driver) (writeCmd writeCmdOffset : ℕ) : Prop :=
  writeCmd < s.slots.length ∧ writeCmdOffset < (s.slots.getD writeCmd .zero).size

/-- The loop reaches the slot `write_cmd`, and the slot has no byte at `write_cmd_offset`: the
early `return -EINVAL` is taken. -/
def Driver.EarlyReturn (s : Driver) (writeCmd writeCmdOffset : ℕ) : Prop :=
  writeCmd ≤ 9 ∧ writeCmd ≤ s.slots.length ∧ ¬s.NamesByte writeCmd writeCmdOffset

instance (w off : ℕ) : Decidable (s.NamesByte w off) := inferInstanceAs (Decidable (_ ∧ _))

instance (w off : ℕ) : Decidable (s.EarlyReturn w off) := inferInstanceAs (Decidable (_ ∧ _))

/-- `total_buffer_size` after the loop of `aesd_llseek`. -/
def Driver.totalBufferSize (s : Driver) : ℤ :=
  s.circBuff.entry.toList.foldl
    (fun total e => if e.buffptr = none then total else signed64 (total + e.size)) 0

/-- The seek is left to `fixed_size_llseek`, for a device of this size. -/
lemma aesdLlseek_eq_call (fsl : FixedSizeLlseek) (s : Driver) (fPos offset whence : ℤ) :
    aesdLlseek fsl s fPos offset whence = fsl.call fPos offset whence s.totalBufferSize := rfl

/-- The size `aesd_llseek` computes is the number of bytes of the commands held. -/
lemma Inv.totalBufferSize_eq (hI : Inv s q extra) :
    s.totalBufferSize = s.commands.flatten.length := by
  have htotal := hI.length_flatten_lt
  have hsum : (s.circBuff.entry.toList.map (·.size)).sum = s.commands.flatten.length := by
    rw [hI.entry_eq, List.map_append, List.sum_append, hI.sum_slots]
    simp [AesdBufferEntry.zero]
  have hnull : ∀ e ∈ s.circBuff.entry.toList, e.buffptr = none → e.size = 0 := by
    intro e he hn
    rw [hI.entry_eq, List.mem_append, List.mem_replicate] at he
    rcases he with he | ⟨-, rfl⟩
    · obtain ⟨p, b, hp, -⟩ := hI.slots_ok e he
      exact absurd (hn.symm.trans hp) (by simp)
    · rfl
  have hfold := foldl_size_eq s.circBuff.entry.toList hnull 0 (by omega)
  rw [Nat.zero_add, hsum] at hfold
  exact hfold

/-- A seek in terms of the commands held. -/
lemma aesdLlseek_eq (fsl : FixedSizeLlseek) (hI : Inv s q extra) (fPos offset whence : ℤ) :
    aesdLlseek fsl s fPos offset whence =
      fsl.call fPos offset whence (s.commands.flatten.length : ℤ) := by
  rw [aesdLlseek_eq_call, hI.totalBufferSize_eq]

/-- An absolute seek to a position within the commands held. -/
lemma aesdLlseek_set (fsl : FixedSizeLlseek) (hI : Inv s q extra) (fPos : ℤ) {pos : ℕ}
    (hpos : pos ≤ s.commands.flatten.length) :
    aesdLlseek fsl s fPos pos seekSet = ((pos : ℤ), (pos : ℤ)) := by
  rw [aesdLlseek_eq fsl hI]
  exact fsl.seek_set _ _ _ (by omega) (by omega)

/-- The position given to a byte of a slot is within the commands held. -/
lemma Driver.NamesByte.slotPos_lt (hI : Inv s q extra) {w off : ℕ} (h : s.NamesByte w off) :
    s.slotPos w + off < s.commands.flatten.length := by
  obtain ⟨hw, hoff⟩ := h
  rw [List.getD_eq_getElem _ _ hw] at hoff
  have hsplit := congrArg (fun l => (l.map (·.size)).sum) (List.take_append_drop w s.slots)
  rw [List.drop_eq_getElem_cons hw] at hsplit
  simp only [List.map_append, List.map_cons, List.sum_append, List.sum_cons] at hsplit
  rw [hI.sum_slots] at hsplit
  rw [Driver.slotPos]
  omega

/-- **A seek with a free lock** that is not interrupted. A byte of a slot is accepted. A slot that
the loop reaches without such a byte takes the early return and leaves the lock held. Any other
`write_cmd` in range passes the loop and seeks to the end. -/
theorem aesdAdjustFileOffset_spec (fsl : FixedSizeLlseek) (hI : Inv s q []) (hlock : s.lock = false)
    (fPos : ℤ) (w : ℕ) {off : ℕ} (hoff : off < 2 ^ 32) :
    aesdAdjustFileOffset fsl s fPos false w off =
      if 10 < w then some ({ ret := -EINVAL, fPos }, s)
      else if s.NamesByte w off then
        some ({ ret := (s.slotPos w + off : ℕ), fPos := (s.slotPos w + off : ℕ) }, s)
      else if s.EarlyReturn w off then some ({ ret := -EINVAL, fPos }, s.locked)
      else some ({ ret := s.commands.flatten.length, fPos := s.commands.flatten.length }, s) := by
  have hlocked : Inv s.locked q [] := hI.set_lock true
  have htotal := hI.length_flatten_lt
  have hslots := hI.length_slots
  have hten := hI.ring.length_le
  have hne : ∀ e ∈ s.slots, e.buffptr ≠ none := by
    intro e he hn
    obtain ⟨p, b, hp, -⟩ := hI.slots_ok e he
    exact absurd (hn.symm.trans hp) (by simp)
  have hloop := adjustLoop_eq w off s.slots (10 - s.slots.length) 0 0 hne (Nat.zero_le _)
    (by rw [hI.sum_slots]; omega)
  rw [← hI.entry_eq, hI.sum_slots, Nat.sub_zero, Nat.zero_add, Nat.zero_add] at hloop
  have hloop : adjustLoop w off s.circBuff.entry.toList 0 0 =
      if s.NamesByte w off then some ((s.slotPos w + off : ℕ) : ℤ)
      else if w < s.slots.length + min (10 - s.slots.length) 1 then none
      else some (s.commands.flatten.length : ℤ) := hloop
  -- the loop either leaves early or gives a position to seek to
  have hleave : adjustLoop w off s.circBuff.entry.toList 0 0 = none → ¬10 < w →
      aesdAdjustFileOffset fsl s fPos false w off = some ({ ret := -EINVAL, fPos }, s.locked) := by
    intro hl hw
    rw [aesdAdjustFileOffset, if_neg hw]
    simp only [mutexLockInterruptible, hlock, Bool.false_eq_true, if_false]
    rw [show s.locked.circBuff = s.circBuff from rfl, hl]
  have hseek : ∀ pos : ℕ, adjustLoop w off s.circBuff.entry.toList 0 0 = some (pos : ℤ) →
      pos ≤ s.commands.flatten.length → ¬10 < w →
      aesdAdjustFileOffset fsl s fPos false w off = some ({ ret := pos, fPos := pos }, s) := by
    intro pos hl hpos hw
    rw [aesdAdjustFileOffset, if_neg hw]
    simp only [mutexLockInterruptible, hlock, Bool.false_eq_true, if_false]
    rw [show s.locked.circBuff = s.circBuff from rfl, hl]
    simp only [aesdLlseek_set fsl hlocked fPos (show pos ≤ s.locked.commands.flatten.length from hpos),
      s.unlock_locked hlock]
  by_cases hw : 10 < w
  · rw [if_pos hw, aesdAdjustFileOffset, if_pos hw]
  rw [if_neg hw]
  by_cases hname : s.NamesByte w off
  · rw [if_pos hname]
    rw [if_pos hname] at hloop
    exact hseek _ hloop (Nat.le_of_lt (hname.slotPos_lt hI)) hw
  · rw [if_neg hname]
    rw [if_neg hname] at hloop
    by_cases hearly : s.EarlyReturn w off
    · rw [if_pos hearly]
      refine hleave (hloop.trans (if_pos ?_)) hw
      obtain ⟨h9, hle, -⟩ := hearly
      omega
    · rw [if_neg hearly]
      refine hseek _ (hloop.trans (if_neg ?_)) (Nat.le_refl _) hw
      intro hlt
      exact hearly ⟨by omega, by omega, hname⟩

/-! ## Calls of the ioctl -/

/-- A seek leaves the device as it was, but for the lock it may leave held. -/
lemma aesdAdjustFileOffset_state {fsl : FixedSizeLlseek} {fPos : ℤ} {interrupted : Bool}
    {w off : ℕ} {reply : Reply}
    (h : aesdAdjustFileOffset fsl s fPos interrupted w off = some (reply, s')) :
    s' = s ∨ s.lock = false ∧ s' = s.locked := by
  unfold aesdAdjustFileOffset at h
  split_ifs at h with hw
  · exact .inl (Prod.mk.inj (Option.some.inj h)).2.symm
  · cases hlock : s.lock <;> cases interrupted <;>
      simp only [mutexLockInterruptible, hlock, Bool.false_eq_true, if_false, if_true] at h
    · -- the lock is taken
      split at h
      · exact .inr ⟨rfl, (Prod.mk.inj (Option.some.inj h)).2.symm⟩
      · rw [s.unlock_locked hlock] at h
        exact .inl (Prod.mk.inj (Option.some.inj h)).2.symm
    · exact .inl (Prod.mk.inj (Option.some.inj h)).2.symm
    · exact absurd h (by simp)
    · exact .inl (Prod.mk.inj (Option.some.inj h)).2.symm

/-- An ioctl leaves the device as it was, but for the lock it may leave held. -/
lemma aesdIoctl_state {fsl : FixedSizeLlseek} {fPos : ℤ} {cmd : UInt32} {env : IoctlEnv}
    {reply : Reply} (h : aesdIoctl fsl s fPos cmd env = some (reply, s')) :
    s' = s ∨ s.lock = false ∧ s' = s.locked := by
  unfold aesdIoctl at h
  split_ifs at h
  · exact .inl (Prod.mk.inj (Option.some.inj h)).2.symm
  · exact .inl (Prod.mk.inj (Option.some.inj h)).2.symm
  · split at h
    · exact .inl (Prod.mk.inj (Option.some.inj h)).2.symm
    · exact aesdAdjustFileOffset_state h
  · exact .inl (Prod.mk.inj (Option.some.inj h)).2.symm

/-- The ioctl with its command word and a copied argument is the seek. -/
lemma aesdIoctl_seekto (fsl : FixedSizeLlseek) (s : Driver) (fPos : ℤ) (env : IoctlEnv)
    {seekto : AesdSeekto} (h : env.seekto = some seekto) :
    aesdIoctl fsl s fPos aesdcharIocseekto env =
      aesdAdjustFileOffset fsl s fPos env.interrupted seekto.writeCmd.toNat
        seekto.writeCmdOffset.toNat := by
  have htype : ¬iocType aesdcharIocseekto ≠ aesdIocMagic := by decide
  have hnr : ¬aesdcharIocMaxnr < iocNr aesdcharIocseekto := by decide
  rw [aesdIoctl, if_neg htype, if_neg hnr, if_pos rfl, h]

end Aesd
