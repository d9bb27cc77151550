import Aesd.Driver.SeekContract
import Aesd.Lib.Simulation

set_option relaxedAutoImplicit false
set_option autoImplicit false

/-!
# The device user space sees

User space sees the calls with their arguments and replies, and nothing of the slots, the heap and
the offsets of the circular buffer. What it sees is a log of commands behind a mutex: the state is
the history of committed commands with the pending bytes, and whether the mutex is held. The
abstract device keeps what a program can tell from outside: the memory after a block may complete a
command that has no newline and was copied whole, the seek numbers the commands in array order once
ten have been committed, a seek to a byte that no command has may hold the mutex for good, and a
write of no bytes while none are pending never returns, and holds the mutex for good.

## Main definitions

* `Aesd.LogDevice`, `Aesd.LogStep` — the abstract device and its calls.
* `Aesd.LogDevice.seekTo` — what a seek to a byte of a command does.
* `Aesd.Exchange`, `Aesd.observe` — a call as user space sees it.
* `Aesd.Shows`, `Aesd.Reveals` — the device shows the abstract state, also after a fault.

## Main results

* `Aesd.simulates_logStep` — every call is one of the abstract device.
* `Aesd.realises_logStep` — every call of the abstract device is one the driver can make.
* `Aesd.device_traces` — the traces of both are the same.
* `Aesd.device_dies` — when the mutex stays held, and that nothing works afterwards.
-/

namespace Aesd

open Transition

/-! ## The abstract device -/

/-- A log of commands behind a mutex. -/
structure LogDevice where
  log : CommandLog Byte
  locked : Bool

/-- What a seek to a byte of a command does: it is refused, it moves the file position, or it is
refused and the mutex stays held. -/
inductive SeekOutcome where
  | refused
  | moved (pos : ℕ)
  | stuck
deriving DecidableEq, Repr

namespace LogDevice

variable (d : LogDevice)

/-- The commands a read can deliver, oldest first. -/
def held : List (List Byte) := d.log.window 10

/-- The commands in the order in which a seek numbers them: oldest first until ten have been
committed; from then on the first is the last one whose place in the history is a multiple of
ten. -/
def numbered : List (List Byte) :=
  if 10 ≤ d.log.committed.length then d.held.rotate (10 - d.log.committed.length % 10) else d.held

/-- What a seek to byte `off` of command `w` does. -/
def seekTo (w off : ℕ) : SeekOutcome :=
  if 10 < w then .refused
  else if off < (d.numbered.map List.length).getD w 0 then
    .moved (((d.numbered.map List.length).take w).sum + off)
  else if w ≤ 9 ∧ w ≤ d.numbered.length then .stuck
  else .moved d.held.flatten.length

end LogDevice

/-- A call as user space sees it: its arguments and its reply, if it has one, without the outcomes
of the kernel calls in it. -/
inductive Exchange where
  | read (fPos : ℤ) (count : ℕ) (reply : Option Reply)
  | write (fPos : ℤ) (buf : UserBuf) (reply : Option Reply)
  | llseek (fPos offset whence : ℤ) (reply : Option Reply)
  | ioctl (fPos : ℤ) (cmd : UInt32) (seekto : Option AesdSeekto) (reply : Option Reply)

/-- What user space sees of a call. -/
def observe : Call × Option Reply → Exchange
  | (.read fPos count _, reply) => .read fPos count reply
  | (.write fPos buf _, reply) => .write fPos buf reply
  | (.llseek fPos offset whence, reply) => .llseek fPos offset whence reply
  | (.ioctl fPos cmd env, reply) => .ioctl fPos cmd env.seekto reply

/-- The position of a read is one a file can have. -/
def Exchange.InRange : Exchange → Prop
  | .read fPos _ _ => 0 ≤ fPos ∧ fPos < 2 ^ 63
  | _ => True

/-- The calls of the abstract device. -/
inductive LogStep (fsl : FixedSizeLlseek) (d : LogDevice) : Exchange → LogDevice → Prop
  | readInterrupted {fPos : ℤ} {count : ℕ} :
      LogStep fsl d (.read fPos count (some { ret := -ERESTARTSYS, fPos })) d
  | read {fPos : ℤ} {count n : ℕ} (hlock : d.locked = false)
      (hn : n ≤ (Segments.readAt d.held fPos.toNat count).length) :
      LogStep fsl d (.read fPos count (some
        { ret := n, fPos := fPos + n, data := (Segments.readAt d.held fPos.toNat count).take n })) d
  | writeInterrupted {fPos : ℤ} {buf : UserBuf} :
      LogStep fsl d (.write fPos buf (some { ret := -ERESTARTSYS, fPos })) d
  | writeNoMemory {fPos : ℤ} {buf : UserBuf} (hlock : d.locked = false) :
      LogStep fsl d (.write fPos buf (some { ret := -ENOMEM, fPos })) d
  | write {fPos : ℤ} {buf : UserBuf} {n : ℕ} {complete : Bool} (hlock : d.locked = false)
      (hne : buf.bytes.length + d.log.pending.length ≠ 0)
      (hsize : buf.bytes.length + d.log.pending.length ≤ kmallocMaxSize)
      (hn : n ≤ buf.bytes.length)
      (hcomplete : newline ∈ d.log.pending ++ buf.bytes.take n → complete = true)
      (hstray : complete = true →
        newline ∈ d.log.pending ++ buf.bytes.take n ∨ n = buf.bytes.length) :
      LogStep fsl d (.write fPos buf (some { ret := n, fPos := signed64 (fPos + n) }))
        ⟨d.log.append (buf.bytes.take n) complete, false⟩
  | writeFault {fPos : ℤ} {buf : UserBuf} (hlock : d.locked = false)
      (hempty : buf.bytes.length + d.log.pending.length = 0) :
      LogStep fsl d (.write fPos buf none) ⟨d.log, true⟩
  | llseek {fPos offset whence : ℤ} :
      LogStep fsl d (.llseek fPos offset whence (some
        { ret := (fsl.call fPos offset whence d.held.flatten.length).1
          fPos := (fsl.call fPos offset whence d.held.flatten.length).2 })) d
  | notSeekto {fPos : ℤ} {cmd : UInt32} {seekto : Option AesdSeekto}
      (hcmd : cmd ≠ aesdcharIocseekto) :
      LogStep fsl d (.ioctl fPos cmd seekto (some { ret := -ENOTTY, fPos })) d
  | uncopied {fPos : ℤ} :
      LogStep fsl d (.ioctl fPos aesdcharIocseekto none (some { ret := EFAULT, fPos })) d
  | seekInterrupted {fPos : ℤ} {seekto : AesdSeekto} (hw : seekto.writeCmd.toNat ≤ 10) :
      LogStep fsl d (.ioctl fPos aesdcharIocseekto seekto (some { ret := -ERESTARTSYS, fPos })) d
  | refused {fPos : ℤ} {seekto : AesdSeekto} (hw : 10 < seekto.writeCmd.toNat) :
      LogStep fsl d (.ioctl fPos aesdcharIocseekto seekto (some { ret := -EINVAL, fPos })) d
  | moved {fPos : ℤ} {seekto : AesdSeekto} {pos : ℕ} (hlock : d.locked = false)
      (hpos : d.seekTo seekto.writeCmd.toNat seekto.writeCmdOffset.toNat = .moved pos) :
      LogStep fsl d (.ioctl fPos aesdcharIocseekto seekto (some { ret := pos, fPos := pos })) d
  | stuck {fPos : ℤ} {seekto : AesdSeekto} (hlock : d.locked = false)
      (hstuck : d.seekTo seekto.writeCmd.toNat seekto.writeCmdOffset.toNat = .stuck) :
      LogStep fsl d (.ioctl fPos aesdcharIocseekto seekto (some { ret := -EINVAL, fPos }))
        ⟨d.log, true⟩

/-! ## What the device shows -/

/-- The device shows the abstract state: its contents are those of the log, and the mutex is held
or free. -/
structure Shows (s : Driver) (d : LogDevice) : Prop where
  inv : ∃ q, Inv s q []
  contents_eq : s.contents = logContents d.log
  lock_eq : s.lock = d.locked

/-- The device shows the abstract state, or a write has faulted: what it had allocated is lost, and
the mutex is held. -/
inductive Reveals (s : Driver) (d : LogDevice) : Prop
  | shows (h : Shows s d)
  | faulted (hI : ∃ q extra, Inv s q extra) (hcontents : s.contents = logContents d.log)
      (hlock : s.lock = true) (hlocked : d.locked = true)

variable {fsl : FixedSizeLlseek} {s s' : Driver} {d : LogDevice}

/-- The initialised device shows an empty log. -/
lemma Initialised.shows (h : Initialised s) : Shows s ⟨.empty, false⟩ := by
  obtain ⟨g, rfl⟩ := initialised_iff.mp h
  exact ⟨⟨[], inv_initialDriver g⟩, contents_initialDriver g, rfl⟩

namespace Shows

lemma commands_eq (h : Shows s d) : s.commands = d.held := congrArg Contents.commands h.contents_eq

lemma pending_eq (h : Shows s d) : s.pending = d.log.pending :=
  congrArg Contents.pending h.contents_eq

/-- The slots in array order have the sizes of the commands as the seek numbers them. -/
lemma map_size_slots (h : Shows s d) : s.slots.map (·.size) = d.numbered.map List.length := by
  obtain ⟨q, hI⟩ := h.inv
  have hfull : s.circBuff.full = decide (10 ≤ d.log.committed.length) :=
    congrArg Contents.full h.contents_eq
  have hin : s.circBuff.inOffs = d.log.committed.length % 10 :=
    congrArg Contents.inOffs h.contents_eq
  rw [hI.map_size_slots, h.commands_eq, hfull, hin, LogDevice.numbered]
  by_cases hten : 10 ≤ d.log.committed.length
  · rw [if_pos (decide_eq_true hten), if_pos hten, List.map_rotate]
  · rw [if_neg (by simpa using hten), if_neg hten]

lemma length_slots (h : Shows s d) : s.slots.length = d.numbered.length := by
  have hlen := congrArg List.length h.map_size_slots
  rwa [List.length_map, List.length_map] at hlen

/-- **A seek with a free lock** does what it does to the abstract device. -/
lemma adjust (h : Shows s d) (hlock : s.lock = false) (fPos : ℤ) (w : ℕ) {off : ℕ}
    (hoff : off < 2 ^ 32) :
    aesdAdjustFileOffset fsl s fPos false w off =
      match d.seekTo w off with
      | .refused => some ({ ret := -EINVAL, fPos }, s)
      | .moved pos => some ({ ret := pos, fPos := pos }, s)
      | .stuck => some ({ ret := -EINVAL, fPos }, s.locked) := by
  obtain ⟨q, hI⟩ := h.inv
  rw [aesdAdjustFileOffset_spec fsl hI hlock fPos w hoff, LogDevice.seekTo]
  have hname : s.NamesByte w off ↔ off < (s.slots.map (·.size)).getD w 0 := namesByte_iff
  rw [h.map_size_slots] at hname
  have hearly : s.EarlyReturn w off ↔ (w ≤ 9 ∧ w ≤ d.numbered.length) ∧ ¬s.NamesByte w off := by
    rw [Driver.EarlyReturn, h.length_slots, and_assoc]
  have hpos : s.slotPos w = ((d.numbered.map List.length).take w).sum := by
    rw [Driver.slotPos, List.map_take, h.map_size_slots]
  by_cases hbig : 10 < w
  · rw [if_pos hbig, if_pos hbig]
  · rw [if_neg hbig, if_neg hbig]
    by_cases hbyte : s.NamesByte w off
    · rw [if_pos hbyte, if_pos (hname.mp hbyte), hpos]
    · rw [if_neg hbyte, if_neg (hname.not.mp hbyte), h.commands_eq]
      by_cases hreach : w ≤ 9 ∧ w ≤ d.numbered.length
      · rw [if_pos (hearly.mpr ⟨hreach, hbyte⟩), if_pos hreach]
      · rw [if_neg fun he => hreach (hearly.mp he).1, if_neg hreach]

/-- A write that stored shows the log with the piece it took. -/
lemma write (h : Shows s d) {buf : UserBuf} {env : WriteEnv} {found : Bool} (hlock : s.lock = false)
    (hstored : Stored s (accumulated s buf env) found s') :
    Shows s' ⟨d.log.append (buf.bytes.take (env.copied buf)) found, false⟩ :=
  ⟨hstored.inv, hstored.contents_eq h.contents_eq, hstored.lock_eq.trans hlock⟩

/-- A write that faulted shows the same log, with the mutex held. -/
lemma fault (h : Shows s d) (hpending : d.log.pending = []) (hfaulted : Faulted s s') :
    Reveals s' ⟨d.log, true⟩ := by
  refine .faulted hfaulted.inv (.trans ?_ h.contents_eq) hfaulted.lock_eq rfl
  refine Contents.ext hfaulted.commands_eq ?_ ?_ ?_ ?_
  · rw [Driver.contents, Driver.contents, hfaulted.pending_eq, h.pending_eq, hpending]
  all_goals simp only [Driver.contents, hfaulted.circBuff_eq]

end Shows

namespace Reveals

lemma lock_eq (h : Reveals s d) : s.lock = d.locked := by
  cases h with
  | shows h => exact h.lock_eq
  | faulted _ _ hlock hlocked => rw [hlock, hlocked]

/-- While the mutex is free nothing is lost. -/
lemma shows_of_free (h : Reveals s d) (hlock : s.lock = false) : Shows s d := by
  cases h with
  | shows h => exact h
  | faulted _ _ hheld => exact absurd (hlock.symm.trans hheld) (by simp)

/-- The end of the device is the end of the commands held. -/
lemma llseek (h : Reveals s d) (fPos offset whence : ℤ) :
    aesdLlseek fsl s fPos offset whence =
      fsl.call fPos offset whence d.held.flatten.length := by
  have hcommon : (∃ q extra, Inv s q extra) ∧ s.contents = logContents d.log := by
    cases h with
    | shows h =>
      obtain ⟨q, hI⟩ := h.inv
      exact ⟨⟨q, [], hI⟩, h.contents_eq⟩
    | faulted hI hcontents => exact ⟨hI, hcontents⟩
  obtain ⟨⟨q, extra, hI⟩, hcontents⟩ := hcommon
  have hcommands : s.commands = d.held := congrArg Contents.commands hcontents
  rw [aesdLlseek_eq fsl hI, hcommands]

/-! ## Every call is one of the abstract device -/

/-- A seek that returns is one of the abstract device. -/
lemma ioctl_seekto (h : Reveals s d) {fPos : ℤ} {env : IoctlEnv} {seekto : AesdSeekto}
    {reply : Reply} (hseekto : env.seekto = some seekto)
    (hret : aesdIoctl fsl s fPos aesdcharIocseekto env = some (reply, s')) :
    ∃ d', LogStep fsl d (.ioctl fPos aesdcharIocseekto seekto reply) d' ∧ Reveals s' d' := by
  rw [aesdIoctl_seekto fsl s fPos env hseekto] at hret
  have hoff : seekto.writeCmdOffset.toNat < 2 ^ 32 := seekto.writeCmdOffset.toNat_lt
  by_cases hw : 10 < seekto.writeCmd.toNat
  · rw [aesdAdjustFileOffset, if_pos hw] at hret
    obtain ⟨rfl, rfl⟩ := Prod.mk.inj (Option.some.inj hret)
    exact ⟨d, .refused hw, h⟩
  · cases hint : env.interrupted with
    | true =>
      rw [hint, aesdAdjustFileOffset, if_neg hw] at hret
      obtain ⟨rfl, rfl⟩ := Prod.mk.inj (Option.some.inj hret)
      exact ⟨d, .seekInterrupted (by omega), h⟩
    | false =>
      cases hlock : s.lock with
      | true =>
        rw [hint, aesdAdjustFileOffset_of_lock fsl hlock fPos hw] at hret
        exact absurd hret (by simp)
      | false =>
        have hfree : d.locked = false := h.lock_eq ▸ hlock
        have hshows := h.shows_of_free hlock
        rw [hint, hshows.adjust hlock fPos _ hoff] at hret
        cases hout : d.seekTo seekto.writeCmd.toNat seekto.writeCmdOffset.toNat with
        | refused =>
          -- only a command number above ten is refused with the lock free
          unfold LogDevice.seekTo at hout
          split_ifs at hout
        | moved pos =>
          rw [hout] at hret
          obtain ⟨rfl, rfl⟩ := Prod.mk.inj (Option.some.inj hret)
          exact ⟨d, .moved hfree hout, h⟩
        | stuck =>
          rw [hout] at hret
          obtain ⟨rfl, rfl⟩ := Prod.mk.inj (Option.some.inj hret)
          obtain ⟨q, hI⟩ := hshows.inv
          exact ⟨_, .stuck hfree hout, .shows ⟨⟨q, hI.set_lock true⟩, hshows.contents_eq, rfl⟩⟩

/-- An ioctl that returns is one of the abstract device. -/
lemma ioctl (h : Reveals s d) {fPos : ℤ} {cmd : UInt32} {env : IoctlEnv} {reply : Reply}
    (hret : aesdIoctl fsl s fPos cmd env = some (reply, s')) :
    ∃ d', LogStep fsl d (.ioctl fPos cmd env.seekto reply) d' ∧ Reveals s' d' := by
  by_cases hcmd : cmd = aesdcharIocseekto
  · subst hcmd
    cases hseekto : env.seekto with
    | none =>
      rw [aesdIoctl_uncopied fsl s fPos hseekto] at hret
      obtain ⟨rfl, rfl⟩ := Prod.mk.inj (Option.some.inj hret)
      exact ⟨d, .uncopied, h⟩
    | some seekto => exact h.ioctl_seekto hseekto hret
  · have hret : some (({ ret := -ENOTTY, fPos } : Reply), s) = some (reply, s') := by
      unfold aesdIoctl at hret
      split_ifs at hret <;> exact hret
    obtain ⟨rfl, rfl⟩ := Prod.mk.inj (Option.some.inj hret)
    exact ⟨d, .notSeekto hcmd, h⟩

/-- A write that returns is one of the abstract device. -/
lemma write_returns (h : Reveals s d) {fPos : ℤ} {buf : UserBuf} {env : WriteEnv} {reply : Reply}
    (hret : aesdWrite s fPos buf env = some (reply, s')) :
    ∃ d', LogStep fsl d (.write fPos buf reply) d' ∧ Reveals s' d' := by
  cases hlock : s.lock with
  | true =>
    rw [aesdWrite, aesdWriteWith_of_lock hlock] at hret
    split_ifs at hret
    obtain ⟨rfl, rfl⟩ := Prod.mk.inj (Option.some.inj hret)
    exact ⟨d, .writeInterrupted, h⟩
  | false =>
    have hfree : d.locked = false := h.lock_eq ▸ hlock
    have hshows := h.shows_of_free hlock
    obtain ⟨q, hI⟩ := hshows.inv
    by_cases ha : Allocates s buf env
    · obtain ⟨found, hd⟩ := writeDone_of_allocates hI ha hret
      obtain ⟨hne, hfound⟩ := scanBlock_eq_some.mp hd.found_eq
      rw [accumulated, hshows.pending_eq] at hfound
      rw [hd.reply_eq]
      refine ⟨_, .write hfree (hshows.pending_eq ▸ hne) ?_ (env.copied_le buf) ?_ ?_,
        .shows (hshows.write hlock hd.stored)⟩
      · exact hshows.pending_eq ▸ ha.size_le
      · exact fun hmem => hfound.mpr (.inl hmem)
      · intro hcomplete
        refine (hfound.mp hcomplete).imp_right fun hstray => ?_
        -- a byte that was not copied is a zero
        by_contra hpartial
        rw [← hshows.pending_eq, ← accumulated, scannedBytes_length,
          if_pos (lt_of_le_of_ne (env.copied_le buf) hpartial)] at hstray
        exact absurd hstray (by decide)
    · rw [aesdWrite, aesdWriteWith_of_not_allocates scanBlock fPos hI hlock ha] at hret
      obtain ⟨rfl, rfl⟩ := Prod.mk.inj (Option.some.inj hret)
      refine ⟨d, ?_, h⟩
      cases env.interrupted with
      | true => exact .writeInterrupted
      | false => exact .writeNoMemory hfree

/-- A write that faults is one of the abstract device. -/
lemma write_faults (h : Reveals s d) {fPos : ℤ} {buf : UserBuf} {env : WriteEnv}
    (hfault : aesdWriteFault s fPos buf env = some s') :
    ∃ d', LogStep fsl d (.write fPos buf none) d' ∧ Reveals s' d' := by
  have hlock : s.lock = false := by
    by_contra hheld
    rw [Bool.not_eq_false] at hheld
    cases hint : env.interrupted <;>
      simp [aesdWriteFault, mutexLockInterruptible, hheld, hint] at hfault
  have hshows := h.shows_of_free hlock
  obtain ⟨q, hI⟩ := hshows.inv
  obtain ⟨-, hfaults, hfaulted⟩ := faults_of_aesdWriteFault hI hfault
  have hempty := hfaults.length_eq
  rw [hshows.pending_eq] at hempty
  exact ⟨_, .writeFault (h.lock_eq ▸ hlock) hempty,
    hshows.fault (List.length_eq_zero_iff.mp (by omega)) hfaulted⟩

/-- A read that returns is one of the abstract device. -/
lemma read_returns (h : Reveals s d) {fPos : ℤ} (h0 : 0 ≤ fPos) (hlt : fPos < 2 ^ 63) {count : ℕ}
    {env : ReadEnv} {reply : Reply} (hret : aesdRead s fPos count env = some (reply, s')) :
    ∃ d', LogStep fsl d (.read fPos count reply) d' ∧ Reveals s' d' := by
  cases hint : env.interrupted with
  | true =>
    rw [aesdRead_of_interrupted s fPos count hint] at hret
    obtain ⟨rfl, rfl⟩ := Prod.mk.inj (Option.some.inj hret)
    exact ⟨d, .readInterrupted, h⟩
  | false =>
    cases hlock : s.lock with
    | true =>
      rw [aesdRead_of_lock hlock fPos count hint] at hret
      exact absurd hret (by simp)
    | false =>
      have hshows := h.shows_of_free hlock
      obtain ⟨q, hI⟩ := hshows.inv
      have hspec := aesdRead_spec hI hlock h0 hlt count hint
      simp only [hshows.commands_eq] at hspec
      rw [hspec] at hret
      obtain ⟨rfl, rfl⟩ := Prod.mk.inj (Option.some.inj hret)
      exact ⟨d, .read (h.lock_eq ▸ hlock) (Nat.sub_le _ _), h⟩

end Reveals

/-- The calls with the arguments that user space can pass. -/
abbrev CallInRange (_ : Driver) (l : Call × Option Reply) : Prop := (observe l).InRange

/-- **Every call is one of the abstract device.** -/
theorem simulates_logStep (fsl : FixedSizeLlseek) :
    Simulates (guarded CallInRange (DeviceStep fsl))
      (guarded (fun _ e => e.InRange) (LogStep fsl)) observe Reveals := by
  rintro s l s' d h ⟨hrange, hstep⟩
  have hlog : ∃ d', LogStep fsl d (observe l) d' ∧ Reveals s' d' := by
    cases hstep with
    | @returns c reply _ hexec =>
      cases c with
      | read fPos count env => exact h.read_returns hrange.1 hrange.2 hexec
      | write fPos buf env => exact h.write_returns hexec
      | llseek fPos offset whence =>
        obtain ⟨rfl, rfl⟩ := Prod.mk.inj (Option.some.inj hexec)
        rw [h.llseek]
        exact ⟨d, .llseek, h⟩
      | ioctl fPos cmd env => exact h.ioctl hexec
    | @faults c _ hfault =>
      cases c with
      | write fPos buf env => exact h.write_faults hfault
      | _ => exact absurd hfault (by simp [execFault])
  obtain ⟨d', hd', hreveals⟩ := hlog
  exact ⟨d', ⟨hrange, hd'⟩, hreveals⟩

/-! ## Every call of the abstract device is one the driver can make -/

/-- Some outcome of the kernel calls makes a write take `n` bytes, and commit or keep what it
accumulated as wanted: a newline after the block commits. -/
lemma Shows.exists_write (h : Shows s d) (hlock : s.lock = false) (fPos : ℤ) {buf : UserBuf} {n : ℕ}
    {complete : Bool} (hne : buf.bytes.length + d.log.pending.length ≠ 0)
    (hsize : buf.bytes.length + d.log.pending.length ≤ kmallocMaxSize) (hn : n ≤ buf.bytes.length)
    (hcomplete : newline ∈ d.log.pending ++ buf.bytes.take n → complete = true)
    (hstray : complete = true →
      newline ∈ d.log.pending ++ buf.bytes.take n ∨ n = buf.bytes.length) :
    ∃ env s', aesdWrite s fPos buf env =
        some ({ ret := n, fPos := signed64 (fPos + n) }, s') ∧
      Shows s' ⟨d.log.append (buf.bytes.take n) complete, false⟩ := by
  obtain ⟨q, hI⟩ := h.inv
  obtain ⟨env, ha, hmemory, huncopied⟩ := exists_allocates hI buf
    (fun _ => if complete then newline else 0) (buf.bytes.length - n) (h.pending_eq ▸ hsize)
  obtain ⟨found, s', hfound, hwrite, hstored⟩ :=
    aesdWrite_of_allocates fPos hI hlock ha (h.pending_eq ▸ hne)
  have hcopied : env.copied buf = n := by
    rw [WriteEnv.copied, huncopied]
    omega
  obtain rfl : found = complete := by
    rw [Bool.eq_iff_iff, hfound, scannedBytes_length, hmemory, hcopied, accumulated, hcopied,
      h.pending_eq]
    have hzero : (0 : Byte) ≠ newline := by decide
    constructor
    · rintro (hmem | hbyte)
      · exact hcomplete hmem
      · by_contra hnot
        rw [Bool.not_eq_true] at hnot
        simp only [hnot, Bool.false_eq_true, if_false, ite_self] at hbyte
        exact hzero hbyte
    · intro htrue
      rcases hstray htrue with hmem | rfl
      · exact .inl hmem
      · simp [htrue]
  rw [hcopied] at hwrite
  exact ⟨env, s', hwrite, hcopied ▸ h.write hlock hstored⟩

/-- **Every call of the abstract device is one the driver can make.** -/
theorem realises_logStep (fsl : FixedSizeLlseek) :
    Realises (guarded CallInRange (DeviceStep fsl))
      (guarded (fun _ e => e.InRange) (LogStep fsl)) observe Reveals := by
  rintro s d e d' h ⟨hrange, hstep⟩
  suffices hcall : ∃ l s', observe l = e ∧ DeviceStep fsl s l s' ∧ Reveals s' d' by
    obtain ⟨l, s', rfl, hdevice, hreveals⟩ := hcall
    exact ⟨l, s', rfl, ⟨hrange, hdevice⟩, hreveals⟩
  have hfree : d.locked = false → s.lock = false := fun hlock => h.lock_eq.trans hlock
  cases hstep with
  | @readInterrupted fPos count =>
    have hint : (⟨true, 0⟩ : ReadEnv).interrupted = true := rfl
    exact ⟨(.read fPos count ⟨true, 0⟩, _), s, rfl,
      .returns (aesdRead_of_interrupted s fPos count hint), h⟩
  | @read fPos count n hlock hn =>
    have hshows := h.shows_of_free (hfree hlock)
    obtain ⟨q, hI⟩ := hshows.inv
    set data := Segments.readAt d.held fPos.toNat count with hdata
    have hint : (⟨false, data.length - n⟩ : ReadEnv).interrupted = false := rfl
    have hspec := aesdRead_spec hI (hfree hlock) hrange.1 hrange.2 count hint
    have hcopied : data.length - min (data.length - n) data.length = n := by omega
    simp only [hshows.commands_eq, ← hdata, hcopied] at hspec
    exact ⟨(.read fPos count ⟨false, data.length - n⟩, _), s, rfl, .returns hspec, h⟩
  | @writeInterrupted fPos buf =>
    refine ⟨(.write fPos buf ⟨true, none, none, fun _ => 0, 0⟩, _), s, rfl, .returns ?_, h⟩
    simp [exec, aesdWrite, aesdWriteWith, mutexLockInterruptible]
  | @writeNoMemory fPos buf hlock =>
    obtain ⟨q, hI⟩ := (h.shows_of_free (hfree hlock)).inv
    have hfail : ¬Allocates s buf ⟨false, none, none, fun _ => 0, 0⟩ := fun ha => ha.ne rfl
    exact ⟨(.write fPos buf ⟨false, none, none, fun _ => 0, 0⟩, _), s, rfl,
      .returns (aesdWriteWith_of_not_allocates scanBlock fPos hI (hfree hlock) hfail), h⟩
  | @write fPos buf n complete hlock hne hsize hn hcomplete hstray =>
    obtain ⟨env, s', hwrite, hshows⟩ := (h.shows_of_free (hfree hlock)).exists_write (hfree hlock)
      fPos hne hsize hn hcomplete hstray
    exact ⟨(.write fPos buf env, _), s', rfl, .returns hwrite, .shows hshows⟩
  | @writeFault fPos buf hlock hempty =>
    have hshows := h.shows_of_free (hfree hlock)
    obtain ⟨q, hI⟩ := hshows.inv
    rw [← hshows.pending_eq] at hempty
    obtain ⟨env, ha, -, -⟩ := exists_allocates hI buf (fun _ => 0) 0 (by omega)
    obtain ⟨s', hfault, hfaulted⟩ := Faults.exists_fault ⟨ha, hempty⟩ hI (hfree hlock) fPos
    rw [hshows.pending_eq] at hempty
    exact ⟨(.write fPos buf env, none), s', rfl, .faults hfault,
      hshows.fault (List.length_eq_zero_iff.mp (by omega)) hfaulted⟩
  | @llseek fPos offset whence =>
    refine ⟨(.llseek fPos offset whence, _), s, rfl, .returns ?_, h⟩
    simp only [exec, h.llseek]
  | @notSeekto fPos cmd seekto hcmd =>
    refine ⟨(.ioctl fPos cmd ⟨false, seekto⟩, _), s, rfl, .returns ?_, h⟩
    show aesdIoctl fsl s fPos cmd ⟨false, seekto⟩ = _
    unfold aesdIoctl
    split_ifs <;> rfl
  | @uncopied fPos =>
    have hnone : (⟨false, none⟩ : IoctlEnv).seekto = none := rfl
    exact ⟨(.ioctl fPos aesdcharIocseekto ⟨false, none⟩, _), s, rfl,
      .returns (aesdIoctl_uncopied fsl s fPos hnone), h⟩
  | @seekInterrupted fPos seekto hw =>
    refine ⟨(.ioctl fPos aesdcharIocseekto ⟨true, some seekto⟩, _), s, rfl, .returns ?_, h⟩
    refine (aesdIoctl_seekto fsl s fPos ⟨true, some seekto⟩ rfl).trans ?_
    rw [aesdAdjustFileOffset, if_neg (by rw [maxWriteOperationsSupported]; omega)]
    rfl
  | @refused fPos seekto hw =>
    refine ⟨(.ioctl fPos aesdcharIocseekto ⟨false, some seekto⟩, _), s, rfl, .returns ?_, h⟩
    refine (aesdIoctl_seekto fsl s fPos ⟨false, some seekto⟩ rfl).trans ?_
    rw [aesdAdjustFileOffset, if_pos hw]
  | @moved fPos seekto pos hlock hpos =>
    refine ⟨(.ioctl fPos aesdcharIocseekto ⟨false, some seekto⟩, _), s, rfl, .returns ?_, h⟩
    refine (aesdIoctl_seekto fsl s fPos ⟨false, some seekto⟩ rfl).trans ?_
    rw [(h.shows_of_free (hfree hlock)).adjust (hfree hlock) fPos _ seekto.writeCmdOffset.toNat_lt,
      hpos]
  | @stuck fPos seekto hlock hstuck =>
    have hshows := h.shows_of_free (hfree hlock)
    obtain ⟨q, hI⟩ := hshows.inv
    refine ⟨(.ioctl fPos aesdcharIocseekto ⟨false, some seekto⟩, _), s.locked, rfl, .returns ?_,
      .shows ⟨⟨q, hI.set_lock true⟩, hshows.contents_eq, rfl⟩⟩
    refine (aesdIoctl_seekto fsl s fPos ⟨false, some seekto⟩ rfl).trans ?_
    rw [hshows.adjust (hfree hlock) fPos _ seekto.writeCmdOffset.toNat_lt, hstuck]

/-- **The device is a log of commands behind a mutex**, as far as user space can tell. From any
successful initialisation, the sequences of calls that can be made, with their arguments and
replies, are exactly those of the abstract device that starts with an empty log and a free mutex:
no outcome of an allocation, no address and no byte after a block shows in any other way than by
which of the steps of the abstract device is taken. -/
theorem device_traces {s₀ : Driver} (h0 : Initialised s₀) (es : List Exchange) :
    (∃ cs s, Run (guarded CallInRange (DeviceStep fsl)) s₀ cs s ∧ cs.map observe = es) ↔
      ∃ d, Run (guarded (fun _ e => e.InRange) (LogStep fsl)) ⟨.empty, false⟩ es d :=
  traces_iff (simulates_logStep fsl) (realises_logStep fsl) (.shows h0.shows) es

/-- On a fresh device it can be seen that `"a"`, without a newline, is a command, and that a write
of no bytes never returns, after which a read can only be interrupted. -/
theorem device_traces_open_command :
    ∃ cs s, Run (guarded CallInRange (DeviceStep fixedSizeLlseek)) (initialDriver 0) cs s ∧
      cs.map observe = [.write 0 ⟨[97], by decide⟩ (some { ret := 1, fPos := 1 }),
        .read 0 5 (some { ret := 1, fPos := 1, data := [97] }), .write 0 ⟨[], by decide⟩ none,
        .read 0 5 (some { ret := -ERESTARTSYS, fPos := 0 })] := by
  refine (device_traces (initialised_iff.mpr ⟨0, rfl⟩) _).mpr ⟨⟨⟨[[97]], []⟩, true⟩, ?_⟩
  have hwrite : LogStep fixedSizeLlseek ⟨.empty, false⟩
      (.write 0 ⟨[97], by decide⟩ (some { ret := 1, fPos := 1 })) ⟨⟨[[97]], []⟩, false⟩ :=
    .write (n := 1) rfl (by decide) (by decide) (by decide) (fun _ => rfl) fun _ => .inr rfl
  have hread : LogStep fixedSizeLlseek ⟨⟨[[97]], []⟩, false⟩
      (.read 0 5 (some { ret := 1, fPos := 1, data := [97] })) ⟨⟨[[97]], []⟩, false⟩ :=
    .read (n := 1) rfl (by decide)
  have hfault : LogStep fixedSizeLlseek ⟨⟨[[97]], []⟩, false⟩ (.write 0 ⟨[], by decide⟩ none)
      ⟨⟨[[97]], []⟩, true⟩ := .writeFault rfl rfl
  have hwait : LogStep fixedSizeLlseek ⟨⟨[[97]], []⟩, true⟩
      (.read 0 5 (some { ret := -ERESTARTSYS, fPos := 0 })) ⟨⟨[[97]], []⟩, true⟩ := .readInterrupted
  exact (((Run.single ⟨trivial, hwrite⟩).snoc ⟨⟨by decide, by decide⟩, hread⟩).snoc
    ⟨trivial, hfault⟩).snoc ⟨⟨by decide, by decide⟩, hwait⟩

/-! ## When the device dies -/

/-- A seek to a command number of at most ten that fails with `EINVAL`, or a write that faults. -/
def Exchange.Sticks : Exchange → Prop
  | .ioctl _ cmd seekto (some reply) => cmd = aesdcharIocseekto ∧ reply.ret = -EINVAL ∧
      ∃ a, seekto = some a ∧ a.writeCmd.toNat ≤ 10
  | .write _ _ none => True
  | _ => False

/-- The call waits for the mutex. -/
def Exchange.Waits : Exchange → Prop
  | .read .. | .write .. => True
  | .llseek .. => False
  | .ioctl _ cmd seekto _ => cmd = aesdcharIocseekto ∧ ∃ a, seekto = some a ∧ a.writeCmd.toNat ≤ 10

/-- The reply of a call whose wait for the mutex is interrupted. -/
def Exchange.Interrupted : Exchange → Prop
  | .read fPos _ reply | .write fPos _ reply | .llseek fPos _ _ reply | .ioctl fPos _ _ reply =>
    reply = some { ret := -ERESTARTSYS, fPos }

/-- A call that sticks waits for the mutex. -/
lemma Exchange.Sticks.waits {e : Exchange} (h : e.Sticks) : e.Waits := by
  cases e with
  | read | llseek => exact absurd h id
  | write => trivial
  | ioctl _ _ _ reply =>
    cases reply with
    | none => exact absurd h id
    | some reply => exact ⟨h.1, h.2.2⟩

/-- A call that sticks is not interrupted. -/
lemma Exchange.Sticks.not_interrupted {e : Exchange} (h : e.Sticks) : ¬e.Interrupted := by
  cases e with
  | read | llseek => exact absurd h id
  | write _ _ reply =>
    cases reply with
    | none => exact fun hint => absurd (show none = some _ from hint) (by simp)
    | some reply => exact absurd h id
  | ioctl fPos cmd seekto reply =>
    cases reply with
    | none => exact absurd h id
    | some reply =>
      intro hint
      obtain rfl := Option.some.inj hint
      exact absurd (show -ERESTARTSYS = -EINVAL from h.2.1) (by decide)

namespace LogStep

variable {d' : LogDevice} {e : Exchange}

/-- The mutex is held after a call exactly if it was before, or the call sticks. -/
lemma locked_iff (h : LogStep fsl d e d') : d'.locked = true ↔ d.locked = true ∨ e.Sticks := by
  cases h with
  | readInterrupted | read | writeInterrupted | writeNoMemory | llseek => simp [Exchange.Sticks]
  | write hlock => simp [Exchange.Sticks, hlock]
  | writeFault => simp [Exchange.Sticks]
  | notSeekto hcmd => simp [Exchange.Sticks, hcmd]
  | uncopied => simp [Exchange.Sticks]
  | seekInterrupted => simp [Exchange.Sticks, ERESTARTSYS, EINVAL]
  | @refused _ seekto hw =>
    have hnot : ¬seekto.writeCmd.toNat ≤ 10 := by omega
    simp [Exchange.Sticks, hnot]
  | @moved _ _ pos hlock =>
    have hne : ((pos : ℕ) : ℤ) ≠ -EINVAL := by
      rw [EINVAL]
      omega
    simp [Exchange.Sticks, hne]
  | @stuck _ seekto hlock hstuck =>
    have hw : seekto.writeCmd.toNat ≤ 10 := by
      by_contra hbig
      rw [LogDevice.seekTo, if_pos (by omega)] at hstuck
      exact absurd hstuck (by simp)
    simp [Exchange.Sticks, hw]

/-- While the mutex is held, a call that waits for it can only be interrupted. -/
lemma interrupted (h : LogStep fsl d e d') (hlocked : d.locked = true) (he : e.Waits) :
    e.Interrupted := by
  cases h with
  | readInterrupted | writeInterrupted | seekInterrupted => rfl
  | read hlock | writeNoMemory hlock | write hlock | writeFault hlock | moved hlock | stuck hlock =>
    exact absurd (hlocked.symm.trans hlock) (by simp)
  | llseek => exact absurd he id
  | notSeekto hcmd => exact absurd he.1 hcmd
  | uncopied =>
    obtain ⟨-, a, ha, -⟩ := he
    exact absurd ha (by simp)
  | refused hw =>
    obtain ⟨-, a, ha, hle⟩ := he
    obtain rfl := Option.some.inj ha
    omega

end LogStep

/-- While the lock is held no call that returns changes the device. -/
lemma exec_of_lock {c : Call} {reply : Reply} (hlock : s.lock = true)
    (h : exec fsl s c = some (reply, s')) : s' = s := by
  cases c with
  | read fPos count env => exact aesdRead_state h
  | write fPos buf env =>
    have hret : aesdWriteWith scanBlock s fPos buf env = some (reply, s') := h
    rw [aesdWriteWith_of_lock hlock] at hret
    split_ifs at hret
    exact (Prod.mk.inj (Option.some.inj hret)).2.symm
  | llseek fPos offset whence => exact (Prod.mk.inj (Option.some.inj h)).2.symm
  | ioctl fPos cmd env =>
    rcases aesdIoctl_state h with hs | ⟨hfree, -⟩
    · exact hs
    · exact absurd (hlock.symm.trans hfree) (by simp)

/-- While the lock is held no call faults. -/
lemma execFault_of_lock {c : Call} (hlock : s.lock = true) : execFault s c = none := by
  cases c with
  | write fPos buf env =>
    cases hint : env.interrupted <;>
      simp [execFault, aesdWriteFault, mutexLockInterruptible, hlock, hint]
  | _ => rfl

/-- While the lock is held, a run does not change the device, and a call of it that waits for the
lock is interrupted. -/
lemma Reveals.frozen {cs : List (Call × Option Reply)} (hreveals : Reveals s d)
    (hlock : s.lock = true) (h : Run (guarded CallInRange (DeviceStep fsl)) s cs s') :
    s' = s ∧ ∀ l ∈ cs, (observe l).Waits → (observe l).Interrupted := by
  refine h.invariant_labels (I := fun cs t => t = s ∧
    ∀ l ∈ cs, (observe l).Waits → (observe l).Interrupted) ⟨rfl, by simp⟩ ?_
  rintro cs t l u - ⟨rfl, hcs⟩ hstep
  refine ⟨?_, fun k hk => ?_⟩
  · cases hstep.2 with
    | returns hexec => exact exec_of_lock hlock hexec
    | faults hfault => exact absurd ((execFault_of_lock hlock).symm.trans hfault) (by simp)
  · rcases List.mem_append.mp hk with hk | hk
    · exact hcs k hk
    · obtain rfl := List.mem_singleton.mp hk
      obtain ⟨d', ⟨-, hlog⟩, -⟩ := simulates_logStep fsl _ _ _ _ hreveals hstep
      exact hlog.interrupted (hreveals.lock_eq ▸ hlock)

/-- **What a call that sticks does**: it takes the mutex and keeps it; a seek changes nothing else,
and a write that faults leaves the contents. -/
lemma Reveals.stick {l : Call × Option Reply} {t u : Driver} (h : Reveals t d)
    (hstep : guarded CallInRange (DeviceStep fsl) t l u) (hl : (observe l).Sticks) :
    u.lock = true ∧ u.contents = t.contents ∧ (l.2.isSome → u = t.locked) := by
  obtain ⟨d', ⟨-, hlog⟩, hd'⟩ := simulates_logStep fsl _ _ _ _ h hstep
  have hheld : u.lock = true := hd'.lock_eq.trans (hlog.locked_iff.mpr (.inr hl))
  have hfree : t.lock = false := by
    by_contra hlock
    rw [Bool.not_eq_false] at hlock
    exact hl.not_interrupted (hlog.interrupted (h.lock_eq ▸ hlock) hl.waits)
  have hshows := h.shows_of_free hfree
  obtain ⟨q, hI⟩ := hshows.inv
  refine ⟨hheld, ?_⟩
  cases hstep.2 with
  | @returns c reply _ hexec =>
    have hu : u = t.locked := by
      rcases exec_cases hI hexec with rfl | ⟨-, hu⟩ | ⟨_, _, _, _, rfl, -⟩
      · exact absurd (hfree.symm.trans hheld) (by simp)
      · exact hu
      · exact absurd hl id
    exact ⟨by rw [hu]; rfl, fun _ => hu⟩
  | @faults c _ hfault =>
    refine ⟨?_, fun hsome => absurd hsome (by simp)⟩
    cases c with
    | write fPos buf env =>
      obtain ⟨-, hfaults, hfaulted⟩ := faults_of_aesdWriteFault hI hfault
      have hpending : d.log.pending = [] := by
        rw [← hshows.pending_eq, ← List.length_eq_zero_iff]
        have hempty := hfaults.length_eq
        omega
      cases hshows.fault hpending hfaulted with
      | shows hu => exact hu.contents_eq.trans hshows.contents_eq.symm
      | faulted _ hcontents => exact hcontents.trans hshows.contents_eq.symm
    | _ => exact absurd hfault (by simp [execFault])

/-- **When the device dies.** In any run of calls from a successful initialisation the mutex is
held at the end if and only if some seek to a command number of at most ten failed with `EINVAL` or
some write of no bytes faulted. From the first such call on, the contents of the device stay as that
call found them, after a seek the whole device but for the mutex, and every call that waits for the
mutex is interrupted: the device neither delivers nor takes a byte again. -/
theorem device_dies {s₀ : Driver} {cs : List (Call × Option Reply)} (h0 : Initialised s₀)
    (hrun : Run (guarded CallInRange (DeviceStep fsl)) s₀ cs s) :
    (s.lock = true ↔ ∃ l ∈ cs, (observe l).Sticks) ∧
      ∀ pre l post, cs = pre ++ l :: post → (observe l).Sticks →
        (∃ t, Run (guarded CallInRange (DeviceStep fsl)) s₀ pre t ∧ s.contents = t.contents ∧
          (l.2.isSome → s = t.locked)) ∧
          ∀ k ∈ post, (observe k).Waits → (observe k).Interrupted := by
  have hlast : (∃ d, Reveals s d) ∧ (s.lock = true ↔ ∃ l ∈ cs, (observe l).Sticks) := by
    refine hrun.invariant_labels (I := fun cs t => (∃ d, Reveals t d) ∧
      (t.lock = true ↔ ∃ l ∈ cs, (observe l).Sticks)) ⟨⟨_, .shows h0.shows⟩, ?_⟩ ?_
    · rw [h0.shows.lock_eq]
      simp
    · rintro cs t l u - ⟨⟨d, hd⟩, hiff⟩ hstep
      obtain ⟨d', ⟨-, hlog⟩, hd'⟩ := simulates_logStep fsl _ _ _ _ hd hstep
      refine ⟨⟨d', hd'⟩, ?_⟩
      rw [hd'.lock_eq, hlog.locked_iff, ← hd.lock_eq, hiff]
      simp [or_and_right, exists_or]
  refine ⟨hlast.2, fun pre l post hcs hl => ?_⟩
  rw [hcs] at hrun
  obtain ⟨t, hpre, hrest⟩ := hrun.split
  obtain ⟨u, hstep, hpost⟩ := hrest.uncons
  obtain ⟨d, -, hd⟩ := (simulates_logStep fsl).run (.shows h0.shows) hpre
  obtain ⟨d', -, hd'⟩ := simulates_logStep fsl _ _ _ _ hd hstep
  obtain ⟨hlock, hcontents, hu⟩ := hd.stick hstep hl
  obtain ⟨rfl, hfrozen⟩ := hd'.frozen hlock hpost
  exact ⟨⟨t, hpre, hcontents, hu⟩, hfrozen⟩

/-- After a write of `"hi\n"` a write of no bytes faults: the mutex is held, and what the write
before it left is still there. -/
theorem device_dies_empty_write :
    ∃ cs s, Run (guarded CallInRange (DeviceStep fixedSizeLlseek)) (initialDriver 0) cs s ∧
      cs.map observe = [.write 0 ⟨[104, 105, 10], by decide⟩ (some { ret := 3, fPos := 3 }),
        .write 3 ⟨[], by decide⟩ none] ∧
      s.lock = true ∧ s.commands = [[104, 105, 10]] := by
  obtain ⟨env, s₁, hwrite, hstored⟩ := exists_aesdWrite (inv_initialDriver 0) rfl 0
    ⟨[104, 105, 10], by decide⟩ (by decide) (by decide)
  obtain ⟨q, hI⟩ := hstored.inv
  have hpending : s₁.pending = [] := hstored.pending_eq
  have hlock : s₁.lock = false := hstored.lock_eq
  obtain ⟨env', ha, -, -⟩ := exists_allocates hI ⟨[], by decide⟩ (fun _ => 0) 0
    (by rw [hpending]; decide)
  have hfaults : Faults s₁ ⟨[], by decide⟩ env' := ⟨ha, by rw [hpending]; rfl⟩
  obtain ⟨s₂, hfault, hfaulted⟩ := hfaults.exists_fault hI hlock 3
  have hfirst : Run (guarded CallInRange (DeviceStep fixedSizeLlseek)) (initialDriver 0)
      [(.write 0 ⟨[104, 105, 10], by decide⟩ env, some { ret := 3, fPos := 3 })] s₁ :=
    Run.single ⟨trivial, .returns hwrite⟩
  have hsecond : guarded CallInRange (DeviceStep fixedSizeLlseek) s₁
      (.write 3 ⟨[], by decide⟩ env', none) s₂ := ⟨trivial, .faults hfault⟩
  refine ⟨_, s₂, hfirst.snoc hsecond, rfl, ?_, hfaulted.commands_eq.trans hstored.commands_eq⟩
  exact (device_dies (initialised_iff.mpr ⟨0, rfl⟩) (hfirst.snoc hsecond)).1.mpr
    ⟨_, List.mem_concat_self, trivial⟩

end Aesd
