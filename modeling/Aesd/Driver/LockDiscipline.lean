import Aesd.Driver.Calls

set_option relaxedAutoImplicit false
set_option autoImplicit false

/-!
# The lock of the device

With a free lock every call returns, and it returns with the lock free, with two exceptions. The
early `return -EINVAL` inside the loop of `aesd_adjust_file_offset` skips the unlock. It is taken
by an `AESDCHAR_IOCSEEKTO` whose `write_cmd` the loop reaches, at a slot without a byte at
`write_cmd_offset`. A write of no bytes while none are pending allocates an empty block, and its
newline scan faults under the lock. After either every call that takes the lock blocks.

## Main definitions

* `Aesd.LeavesLocked` — the calls that take the early return or fault.

## Main results

* `Aesd.lock_discipline` — the other calls release the lock, and no run of them blocks.
-/

namespace Aesd

variable {s s' : Driver} {q : List AesdBufferEntry}

/-- The call is an `AESDCHAR_IOCSEEKTO` that gets its argument and the lock, and whose argument
takes the early return, or a write that faults. -/
def LeavesLocked (s : Driver) : Call → Prop
  | .write _ buf env => Faults s buf env
  | .ioctl _ cmd env => cmd = aesdcharIocseekto ∧ env.interrupted = false ∧
      ∃ seekto, env.seekto = some seekto ∧
        s.EarlyReturn seekto.writeCmd.toNat seekto.writeCmdOffset.toNat
  | _ => False

/-- A call that is not an `AESDCHAR_IOCSEEKTO` with its argument returns without taking the
lock. -/
lemma aesdIoctl_not_seekto (fsl : FixedSizeLlseek) (s : Driver) (fPos : ℤ) {cmd : UInt32}
    {env : IoctlEnv} (h : ¬(cmd = aesdcharIocseekto ∧ env.seekto.isSome)) :
    ∃ reply, aesdIoctl fsl s fPos cmd env = some (reply, s) := by
  unfold aesdIoctl
  split_ifs with h1 h2 h3
  · exact ⟨_, rfl⟩
  · exact ⟨_, rfl⟩
  · cases hseekto : env.seekto with
    | none => exact ⟨_, rfl⟩
    | some seekto => exact absurd ⟨h3, by simp [hseekto]⟩ h
  · exact ⟨_, rfl⟩

/-- **An ioctl with a free lock** returns, with the lock held exactly after the early return. -/
lemma aesdIoctl_lock (fsl : FixedSizeLlseek) (hI : Inv s q []) (hlock : s.lock = false) (fPos : ℤ)
    (cmd : UInt32) (env : IoctlEnv) :
    ∃ reply s', aesdIoctl fsl s fPos cmd env = some (reply, s') ∧
      (s'.lock = true ↔ LeavesLocked s (.ioctl fPos cmd env)) := by
  have hfree : ¬s.lock = true := by simp [hlock]
  by_cases hcmd : cmd = aesdcharIocseekto ∧ env.seekto.isSome
  · obtain ⟨rfl, hsome⟩ := hcmd
    obtain ⟨seekto, hseekto⟩ := Option.isSome_iff_exists.mp hsome
    rw [aesdIoctl_seekto fsl s fPos env hseekto]
    set w := seekto.writeCmd.toNat with hw
    set off := seekto.writeCmdOffset.toNat with hoff
    have hiff : LeavesLocked s (.ioctl fPos aesdcharIocseekto env) ↔
        env.interrupted = false ∧ s.EarlyReturn w off := by
      simp [LeavesLocked, hseekto, hw, hoff]
    cases hint : env.interrupted with
    | true =>
      have hnot : ¬LeavesLocked s (.ioctl fPos aesdcharIocseekto env) := by simp [hiff, hint]
      rw [aesdAdjustFileOffset]
      split_ifs with hbig
      · exact ⟨_, s, rfl, iff_of_false hfree hnot⟩
      · exact ⟨_, s, rfl, iff_of_false hfree hnot⟩
    | false =>
      rw [aesdAdjustFileOffset_spec fsl hI hlock fPos w (by
        rw [hoff]
        exact seekto.writeCmdOffset.toNat_lt)]
      have hiff' : LeavesLocked s (.ioctl fPos aesdcharIocseekto env) ↔ s.EarlyReturn w off := by
        rw [hiff, hint]
        simp
      split_ifs with hbig hname hearly
      · refine ⟨_, s, rfl, iff_of_false hfree ?_⟩
        rw [hiff']
        intro he
        have := he.1
        omega
      · refine ⟨_, s, rfl, iff_of_false hfree ?_⟩
        rw [hiff']
        exact fun he => he.2.2 hname
      · exact ⟨_, s.locked, rfl, iff_of_true rfl (hiff'.mpr hearly)⟩
      · exact ⟨_, s, rfl, iff_of_false hfree (hiff'.not.mpr hearly)⟩
  · obtain ⟨reply, hreply⟩ := aesdIoctl_not_seekto fsl s fPos hcmd
    refine ⟨reply, s, hreply, iff_of_false hfree ?_⟩
    rintro ⟨rfl, -, seekto, hseekto, -⟩
    exact hcmd ⟨rfl, by simp [hseekto]⟩

/-- The call returns, with the lock held exactly if it is one that leaves it so; or it is a write
that faults, and the lock is held. -/
def LockOutcome (fsl : FixedSizeLlseek) (s : Driver) (c : Call) : Prop :=
  (∃ reply s', exec fsl s c = some (reply, s') ∧ (s'.lock = true ↔ LeavesLocked s c)) ∨
    (exec fsl s c = none ∧ LeavesLocked s c ∧ ∃ s', execFault s c = some s' ∧ s'.lock = true)

/-- **A write with a free lock** returns with the lock free, or it faults. -/
lemma aesdWrite_lock (fsl : FixedSizeLlseek) (hI : Inv s q []) (hlock : s.lock = false) (fPos : ℤ)
    (buf : UserBuf) (env : WriteEnv) : LockOutcome fsl s (.write fPos buf env) := by
  by_cases hf : Faults s buf env
  · obtain ⟨s', hfault, hfaulted⟩ := hf.exists_fault hI hlock fPos
    exact .inr ⟨(aesdWrite_eq_none hI hlock).mpr hf, hf, s', hfault, hfaulted.lock_eq⟩
  · have hreturns : aesdWrite s fPos buf env ≠ none := (aesdWrite_eq_none hI hlock).not.mpr hf
    obtain ⟨⟨reply, s'⟩, hrun⟩ := Option.ne_none_iff_exists'.mp hreturns
    refine .inl ⟨reply, s', hrun, iff_of_false ?_ hf⟩
    rcases aesdWriteWith_cases hI hrun with ⟨found, hd⟩ | hfailed
    · simp [hd.stored.lock_eq, hlock]
    · simp [hfailed.state_eq, hlock]

/-- **A call with a free lock** returns or faults. -/
lemma exec_lock (fsl : FixedSizeLlseek) (hI : Inv s q []) (hlock : s.lock = false) (c : Call) :
    LockOutcome fsl s c := by
  have hfree : ¬s.lock = true := by simp [hlock]
  cases c with
  | read fPos count env =>
    obtain ⟨reply, hreply⟩ := aesdRead_returns hlock fPos count env
    exact .inl ⟨reply, s, hreply, iff_of_false hfree id⟩
  | write fPos buf env => exact aesdWrite_lock fsl hI hlock fPos buf env
  | llseek fPos offset whence => exact .inl ⟨_, s, rfl, iff_of_false hfree id⟩
  | ioctl fPos cmd env => exact .inl (aesdIoctl_lock fsl hI hlock fPos cmd env)

/-- **Lock discipline of the driver.** In a reachable state with a free lock, a call returns with
the lock free if and only if it neither takes the early return nor faults; otherwise it returns with
the lock held, or it is a write that has faulted with the lock held. In a run of calls that return
with the lock free, the lock is free between any two calls, and no call blocks: one that does not
return has taken the lock and faults. -/
theorem lock_discipline (fsl : FixedSizeLlseek) :
    (∀ s, Reachable fsl s → s.lock = false → ∀ c,
      ((∃ reply s', exec fsl s c = some (reply, s') ∧ s'.lock = false) ↔ ¬LeavesLocked s c) ∧
      (LeavesLocked s c → (∃ reply s', exec fsl s c = some (reply, s') ∧ s'.lock = true) ∨
        ∃ s', execFault s c = some s' ∧ s'.lock = true)) ∧
    ∀ s₀ cs s, Initialised s₀ →
      Transition.Run (Transition.guarded (fun t l => ¬LeavesLocked t l.1) (CallStep fsl)) s₀ cs s →
      s.lock = false ∧ ∀ c, exec fsl s c = none → ∃ s', execFault s c = some s' := by
  constructor
  · intro s hs hlock c
    obtain ⟨q, hI⟩ := hs.inv
    rcases exec_lock fsl hI hlock c with ⟨reply, s', hexec, hiff⟩ | ⟨hnone, hleaves, hfault⟩
    · refine ⟨?_, fun hleaves => .inl ⟨reply, s', hexec, hiff.mpr hleaves⟩⟩
      rw [← hiff, hexec]
      simp
    · refine ⟨iff_of_false ?_ fun hnot => hnot hleaves, fun _ => .inr hfault⟩
      rintro ⟨reply, s', hexec, -⟩
      exact absurd (hnone.symm.trans hexec) (by simp)
  · intro s₀ cs s h0 hrun
    have hinv : (∃ q, Inv s q []) ∧ s.lock = false := by
      refine hrun.invariant (I := fun t => (∃ q, Inv t q []) ∧ t.lock = false) ?_ ?_
      · obtain ⟨g, rfl⟩ := initialised_iff.mp h0
        exact ⟨⟨[], inv_initialDriver g⟩, rfl⟩
      · rintro t ⟨c, r⟩ u ⟨⟨q, hI⟩, hlock⟩ ⟨hguard, hstep⟩
        rcases exec_lock fsl hI hlock c with ⟨reply, u', hexec, hiff⟩ | ⟨-, hleaves, -⟩
        · obtain ⟨-, rfl⟩ := Prod.mk.inj (Option.some.inj (hexec.symm.trans hstep))
          exact ⟨exec_inv hI hstep, by simpa [← hiff] using hguard⟩
        · exact absurd hleaves hguard
    obtain ⟨⟨q, hI⟩, hlock⟩ := hinv
    refine ⟨hlock, fun c hnone => ?_⟩
    rcases exec_lock fsl hI hlock c with ⟨reply, s', hexec, -⟩ | ⟨-, -, s', hfault, -⟩
    · exact absurd (hexec.symm.trans hnone) (by simp)
    · exact ⟨s', hfault⟩

/-- On the freshly initialised device `AESDCHAR_IOCSEEKTO` with `(0, 0)` returns `-EINVAL` with
the lock held, and a write of no bytes does not return. -/
theorem lock_discipline_fails :
    (¬∀ (fsl : FixedSizeLlseek) (s : Driver) (c : Call), Reachable fsl s → s.lock = false →
      ∃ reply s', exec fsl s c = some (reply, s') ∧ s'.lock = false) ∧
      ∃ env s', exec fixedSizeLlseek (initialDriver 0) (.write 0 ⟨[], by decide⟩ env) = none ∧
        execFault (initialDriver 0) (.write 0 ⟨[], by decide⟩ env) = some s' ∧ s'.lock = true := by
  have hI := inv_initialDriver 0
  refine ⟨fun h => ?_, ?_⟩
  swap
  · obtain ⟨env, ha, -, -⟩ := exists_allocates hI ⟨[], by decide⟩ (fun _ => 0) 0 (by decide)
    have hf : Faults (initialDriver 0) ⟨[], by decide⟩ env := ⟨ha, rfl⟩
    obtain ⟨s', hfault, hfaulted⟩ := hf.exists_fault hI rfl 0
    exact ⟨env, s', (aesdWrite_eq_none hI rfl).mpr hf, hfault, hfaulted.lock_eq⟩
  obtain ⟨reply, s', hexec, hlock⟩ := h fixedSizeLlseek (initialDriver 0)
    (.ioctl 0 aesdcharIocseekto ⟨false, some ⟨0, 0⟩⟩) (reachable_initialDriver _ 0) rfl
  have hearly : exec fixedSizeLlseek (initialDriver 0)
      (.ioctl 0 aesdcharIocseekto ⟨false, some ⟨0, 0⟩⟩) =
        some ({ ret := -EINVAL, fPos := 0 }, (initialDriver 0).locked) := rfl
  rw [hearly] at hexec
  obtain ⟨-, rfl⟩ := Prod.mk.inj (Option.some.inj hexec)
  exact absurd hlock (by decide)

end Aesd
