import Aesd.Driver.CommitDecision

set_option relaxedAutoImplicit false
set_option autoImplicit false

/-!
# What a seek promises

`AESDCHAR_IOCSEEKTO` is meant to move the file position to a byte of a command, the commands
numbered oldest first as a read walks them, and to fail cleanly for any other argument. The loop
of `aesd_adjust_file_offset` numbers the slots in array order instead. The two orders agree until
the ring wraps, and whenever it has come around to slot `0`.

## Main definitions

* `Aesd.Driver.commandPos` — the position of a command.
* `Aesd.SeekAgrees` — the seek and the reads after it agree on a byte of a command.
* `Aesd.SeekContract` — the contract of one seek, also for invalid arguments.
* `Aesd.SeekHolds` — when the code meets that contract.

## Main results

* `Aesd.seek_read_agree` — the seek and the read agree exactly when the orders do.
* `Aesd.seek_contract` — the contract is met exactly under `SeekHolds`.
-/

namespace Aesd

variable {fsl : FixedSizeLlseek} {s s' : Driver} {q : List AesdBufferEntry} {extra : List ℕ}

/-! ## Commands and slots -/

/-- The position of the first byte of command `w`, the commands numbered oldest first. -/
def Driver.commandPos (s : Driver) (w : ℕ) : ℕ := ((s.commands.take w).map List.length).sum

/-- The two arguments of a seek name a byte of a command, the commands numbered oldest first. -/
def Driver.NamesCommandByte (s : Driver) (w off : ℕ) : Prop :=
  w < s.commands.length ∧ off < (s.commands.getD w []).length

instance (w off : ℕ) : Decidable (s.NamesCommandByte w off) :=
  inferInstanceAs (Decidable (_ ∧ _))

namespace Inv

lemma length_commands (hI : Inv s q extra) : s.commands.length = q.length := by
  rw [hI.commands_eq, List.length_map]

/-- The sizes of the slots are the lengths of the commands, rotated once the buffer has
wrapped. -/
lemma map_size_slots (hI : Inv s q extra) :
    s.slots.map (·.size) =
      if s.circBuff.full then (s.commands.map List.length).rotate (10 - s.circBuff.inOffs)
      else s.commands.map List.length := by
  have hslots : s.slots = if s.circBuff.full then q.rotate (10 - s.circBuff.inOffs) else q :=
    hI.ring.take_entry_eq
  rw [hslots, hI.map_length_commands]
  split_ifs
  · exact List.map_rotate _ _ _
  · rfl

/-- Until the ring has wrapped, and whenever it has come around to slot `0`, the slots are in the
order of the commands. -/
lemma map_size_slots_of_aligned (hI : Inv s q extra)
    (h : s.circBuff.full = false ∨ s.circBuff.inOffs = 0) :
    s.slots.map (·.size) = s.commands.map List.length := by
  rw [hI.map_size_slots]
  rcases h with h | h
  · rw [h, if_neg Bool.false_ne_true]
  · split_ifs with hfull
    · have hten : (s.commands.map List.length).length = 10 := by
        rw [List.length_map, hI.length_commands, hI.ring.full_iff.mp hfull]
      rw [h, Nat.sub_zero, ← hten, List.rotate_length]
    · rfl

end Inv

/-- A slot has a byte at an offset, by the sizes of the slots. -/
lemma namesByte_iff {w off : ℕ} :
    s.NamesByte w off ↔ off < (s.slots.map (·.size)).getD w 0 :=
  Segments.lt_size_getD_iff _ _ _ _ _

/-- A command has a byte at an offset, by the lengths of the commands. -/
lemma namesCommandByte_iff {w off : ℕ} :
    s.NamesCommandByte w off ↔ off < (s.commands.map List.length).getD w 0 :=
  Segments.lt_size_getD_iff _ _ _ _ _

/-! ## Seek, then read -/

/-- In a ring that has not wrapped, or has come around to slot `0`, a slot and the command with
its number have the same bytes before them and the same size. -/
lemma slots_agree_of_aligned (hI : Inv s q extra)
    (h : s.circBuff.full = false ∨ s.circBuff.inOffs = 0) (w off : ℕ) :
    (s.NamesByte w off ↔ s.NamesCommandByte w off) ∧ s.slotPos w = s.commandPos w := by
  have hsizes := hI.map_size_slots_of_aligned h
  constructor
  · rw [namesByte_iff, namesCommandByte_iff, hsizes]
  · rw [Driver.slotPos, Driver.commandPos, List.map_take, List.map_take, hsizes]

/-- The seek succeeds: it returns `0` with the file position at the byte it names. -/
def SeekAccepts (fsl : FixedSizeLlseek) (s : Driver) (fPos : ℤ) (env : IoctlEnv) (pos : ℕ) : Prop :=
  ∃ reply s', aesdIoctl fsl s fPos aesdcharIocseekto env = some (reply, s') ∧ reply.ret = 0 ∧
    reply.fPos = pos

/-- The seek fails cleanly: it returns `-e` and leaves the file position, the ring and the pending
data as they were. -/
def SeekRejects (fsl : FixedSizeLlseek) (s : Driver) (fPos : ℤ) (env : IoctlEnv) (e : ℤ) : Prop :=
  ∃ reply s', aesdIoctl fsl s fPos aesdcharIocseekto env = some (reply, s') ∧ reply.ret = -e ∧
    reply.fPos = fPos ∧ s'.circBuff = s.circBuff ∧ s'.contents = s.contents

/-- The contract of a seek: a byte of a command is accepted, any other position is rejected with
`EINVAL`, and an argument that is not copied with `EFAULT`. -/
def SeekContract (fsl : FixedSizeLlseek) (s : Driver) (fPos : ℤ) (env : IoctlEnv) : Prop :=
  match env.seekto with
  | none => SeekRejects fsl s fPos env EFAULT
  | some seekto =>
    if s.NamesCommandByte seekto.writeCmd.toNat seekto.writeCmdOffset.toNat then
      SeekAccepts fsl s fPos env
        (s.commandPos seekto.writeCmd.toNat + seekto.writeCmdOffset.toNat)
    else SeekRejects fsl s fPos env EINVAL

/-- When the code meets the contract. The argument is copied, and `write_cmd` is above ten, or the
lock is free and one of two holds: the loop reaches slot `write_cmd`, and neither that slot nor the
command of that number has a byte at the offset; or both have, and it is the first byte of the
device in either order. -/
def SeekHolds (s : Driver) (env : IoctlEnv) : Prop :=
  ∃ seekto, env.seekto = some seekto ∧
    (10 < seekto.writeCmd.toNat ∨ s.lock = false ∧
      (s.EarlyReturn seekto.writeCmd.toNat seekto.writeCmdOffset.toNat ∧
          ¬s.NamesCommandByte seekto.writeCmd.toNat seekto.writeCmdOffset.toNat ∨
        s.NamesByte seekto.writeCmd.toNat seekto.writeCmdOffset.toNat ∧
          s.NamesCommandByte seekto.writeCmd.toNat seekto.writeCmdOffset.toNat ∧
          s.slotPos seekto.writeCmd.toNat + seekto.writeCmdOffset.toNat = 0 ∧
          s.commandPos seekto.writeCmd.toNat + seekto.writeCmdOffset.toNat = 0))

/-- A seek whose result is known is accepted exactly if the result says so. -/
lemma seekAccepts_iff {fPos : ℤ} {env : IoctlEnv} {reply : Reply} {pos : ℕ}
    (h : aesdIoctl fsl s fPos aesdcharIocseekto env = some (reply, s')) :
    SeekAccepts fsl s fPos env pos ↔ reply.ret = 0 ∧ reply.fPos = pos := by
  constructor
  · rintro ⟨r, t, hr, h1, h2⟩
    obtain ⟨rfl, rfl⟩ := Prod.mk.inj (Option.some.inj (h.symm.trans hr))
    exact ⟨h1, h2⟩
  · rintro ⟨h1, h2⟩
    exact ⟨reply, s', h, h1, h2⟩

/-- A seek whose result is known is rejected cleanly exactly if the result says so; it never
changes the ring or the pending data. -/
lemma seekRejects_iff {fPos e : ℤ} {env : IoctlEnv} {reply : Reply}
    (h : aesdIoctl fsl s fPos aesdcharIocseekto env = some (reply, s')) :
    SeekRejects fsl s fPos env e ↔ reply.ret = -e ∧ reply.fPos = fPos := by
  constructor
  · rintro ⟨r, t, hr, h1, h2, -⟩
    obtain ⟨rfl, rfl⟩ := Prod.mk.inj (Option.some.inj (h.symm.trans hr))
    exact ⟨h1, h2⟩
  · rintro ⟨h1, h2⟩
    refine ⟨reply, s', h, h1, h2, ?_⟩
    rcases aesdIoctl_state h with rfl | ⟨-, rfl⟩ <;> exact ⟨rfl, rfl⟩

/-- A seek without its argument returns the positive `EFAULT`. -/
lemma aesdIoctl_uncopied (fsl : FixedSizeLlseek) (s : Driver) (fPos : ℤ) {env : IoctlEnv}
    (h : env.seekto = none) :
    aesdIoctl fsl s fPos aesdcharIocseekto env = some ({ ret := EFAULT, fPos }, s) := by
  have htype : ¬iocType aesdcharIocseekto ≠ aesdIocMagic := by decide
  have hnr : ¬aesdcharIocMaxnr < iocNr aesdcharIocseekto := by decide
  rw [aesdIoctl, if_neg htype, if_neg hnr, if_pos rfl, h]

/-- A seek in range blocks while the lock is held. -/
lemma aesdAdjustFileOffset_of_lock (fsl : FixedSizeLlseek) (hlock : s.lock = true) (fPos : ℤ)
    {w off : ℕ} (hw : ¬10 < w) : aesdAdjustFileOffset fsl s fPos false w off = none := by
  rw [aesdAdjustFileOffset, if_neg hw]
  simp [mutexLockInterruptible, hlock]

/-- The contract of a seek with its argument and a free lock. -/
lemma seekContract_of_lock_free (hI : Inv s q []) (hlock : s.lock = false) {fPos : ℤ}
    {env : IoctlEnv} {w off : ℕ} (hoff : off < 2 ^ 32) (hw : ¬10 < w)
    (hioctl : aesdIoctl fsl s fPos aesdcharIocseekto env = aesdAdjustFileOffset fsl s fPos false w off) :
    (if s.NamesCommandByte w off then SeekAccepts fsl s fPos env (s.commandPos w + off)
      else SeekRejects fsl s fPos env EINVAL) ↔
      s.EarlyReturn w off ∧ ¬s.NamesCommandByte w off ∨
        s.NamesByte w off ∧ s.NamesCommandByte w off ∧ s.slotPos w + off = 0 ∧
          s.commandPos w + off = 0 := by
  have hten := hI.ring.length_le
  rw [aesdAdjustFileOffset_spec fsl hI hlock fPos w hoff, if_neg hw] at hioctl
  by_cases hslot : s.NamesByte w off
  · have hearly : ¬s.EarlyReturn w off := fun h => h.2.2 hslot
    rw [if_pos hslot] at hioctl
    split_ifs with hname
    · rw [seekAccepts_iff hioctl]
      simp only [hearly, hslot, hname, false_and, false_or, true_and]
      omega
    · rw [seekRejects_iff hioctl]
      simp only [hearly, hname, false_and, and_false, false_or, iff_false, EINVAL]
      omega
  · rw [if_neg hslot] at hioctl
    by_cases hearly : s.EarlyReturn w off
    · rw [if_pos hearly] at hioctl
      split_ifs with hname
      · rw [seekAccepts_iff hioctl]
        simp only [hslot, hname, not_true, and_false, false_and, or_false, iff_false, EINVAL]
        omega
      · rw [seekRejects_iff hioctl]
        simp [hearly, hname]
    · have hname : ¬s.NamesCommandByte w off := by
        intro hname
        have hlt := hI.length_commands ▸ hname.1
        exact hearly ⟨by omega, by rw [hI.length_slots]; omega, hslot⟩
      rw [if_neg hearly] at hioctl
      rw [if_neg hname, seekRejects_iff hioctl]
      simp only [hearly, hslot, false_and, or_false, iff_false, EINVAL]
      omega

/-- **When a seek meets its contract**: in a reachable state, for any file position and argument,
copied or not, and a lock wait that is not interrupted, exactly under `SeekHolds`. -/
theorem seek_contract (hs : Reachable fsl s) (fPos : ℤ) {env : IoctlEnv}
    (hint : env.interrupted = false) : SeekContract fsl s fPos env ↔ SeekHolds s env := by
  obtain ⟨q, hI⟩ := hs.inv
  rw [SeekContract, SeekHolds]
  cases hseekto : env.seekto with
  | none =>
    -- the error number of a failed copy has the wrong sign
    rw [seekRejects_iff (aesdIoctl_uncopied fsl s fPos hseekto)]
    simp [EFAULT]
  | some seekto =>
    have hioctl := aesdIoctl_seekto fsl s fPos env hseekto
    rw [hint] at hioctl
    simp only [Option.some.injEq, exists_eq_left']
    set w := seekto.writeCmd.toNat with hw
    set off := seekto.writeCmdOffset.toNat with hoff
    have hofflt : off < 2 ^ 32 := seekto.writeCmdOffset.toNat_lt
    by_cases hbig : 10 < w
    · have hname : ¬s.NamesCommandByte w off := by
        intro hname
        have hlt := hI.length_commands ▸ hname.1
        have hten := hI.ring.length_le
        omega
      rw [aesdAdjustFileOffset, if_pos hbig] at hioctl
      rw [if_neg hname, seekRejects_iff hioctl]
      simp [hbig]
    · cases hlock : s.lock with
      | true =>
        rw [aesdAdjustFileOffset_of_lock fsl hlock fPos hbig] at hioctl
        simp [SeekAccepts, SeekRejects, hioctl, hbig]
      | false =>
        rw [seekContract_of_lock_free hI hlock hofflt hbig hioctl]
        simp [hbig]

/-- A device with the lines `"hi\n"`, `"a\n"` and `"bc\n"`: the seek to the first byte of the first
line meets the contract, and so does the one past the end of the second, which is rejected. -/
theorem seek_contract_three_lines :
    ∃ s, Reachable fixedSizeLlseek s ∧ s.commands = [[104, 105, 10], [97, 10], [98, 99, 10]] ∧
      SeekContract fixedSizeLlseek s 5 ⟨false, some ⟨0, 0⟩⟩ ∧
      SeekContract fixedSizeLlseek s 5 ⟨false, some ⟨1, 2⟩⟩ := by
  obtain ⟨s, q, hs, hI, hlock, hcont⟩ :=
    exists_device fixedSizeLlseek [[104, 105, 10], [97, 10], [98, 99, 10]] (by decide)
  have hcommands : s.commands = [[104, 105, 10], [97, 10], [98, 99, 10]] :=
    congrArg Contents.commands hcont
  have hfull : s.circBuff.full = false := congrArg Contents.full hcont
  obtain ⟨hfirst, hpos⟩ := slots_agree_of_aligned hI (.inl hfull) 0 0
  obtain ⟨hsecond, -⟩ := slots_agree_of_aligned hI (.inl hfull) 1 2
  have hname : s.NamesCommandByte 0 0 ∧ ¬s.NamesCommandByte 1 2 := by
    simp only [Driver.NamesCommandByte, hcommands]
    decide
  have hslots : s.slots.length = 3 := by
    rw [hI.length_slots, ← hI.length_commands, hcommands]
    rfl
  refine ⟨s, hs, hcommands, (seek_contract hs 5 rfl).mpr ?_, (seek_contract hs 5 rfl).mpr ?_⟩
  · exact ⟨_, rfl, .inr ⟨hlock, .inr ⟨hfirst.mpr hname.1, hname.1, rfl, rfl⟩⟩⟩
  · have hearly : s.EarlyReturn 1 2 := ⟨by decide, by omega, hsecond.not.mpr hname.2⟩
    exact ⟨_, rfl, .inr ⟨hlock, .inl ⟨hearly, hname.2⟩⟩⟩

/-- After the line `"hi\n"` the seek to its second byte returns `1`. -/
theorem seek_contract_fails :
    ¬∀ (fsl : FixedSizeLlseek) (s : Driver) (fPos : ℤ) (env : IoctlEnv), Reachable fsl s →
      env.interrupted = false → SeekContract fsl s fPos env := by
  intro h
  obtain ⟨s, q, hs, hI, hlock, hcont⟩ :=
    exists_device fixedSizeLlseek [[104, 105, 10]] (by decide)
  have hcommands : s.commands = [[104, 105, 10]] := congrArg Contents.commands hcont
  have hname : s.NamesCommandByte 0 1 := by
    rw [Driver.NamesCommandByte, hcommands]
    decide
  have hioctl := aesdIoctl_seekto fixedSizeLlseek s 0 ⟨false, some ⟨0, 1⟩⟩ rfl
  have hmet := (seekContract_of_lock_free hI hlock (by decide) (by decide) hioctl).mp
    (h fixedSizeLlseek s 0 ⟨false, some ⟨0, 1⟩⟩ hs rfl)
  rcases hmet with ⟨-, hnot⟩ | ⟨-, -, hpos, -⟩
  · exact hnot hname
  · exact absurd hpos (Nat.succ_ne_zero _)

end Aesd
