import Aesd.Driver.SeekSpec
import Aesd.Driver.WriteSpec

set_option relaxedAutoImplicit false
set_option autoImplicit false

/-!
# What one call can do

A call that returns leaves the device as it was, leaves it as it was with the lock held, or is a
write that stored what it accumulated. Everything that holds of all states of a run is derived
from these three cases. A write that faults does not return, and leaves the device with the lock
held.

## Main results

* `Aesd.exec_cases` — the effects a call can have.
* `Aesd.aesdWrite_eq_none`, `Aesd.Faults.exists_fault` — the writes that fault.
* `Aesd.exec_inv`, `Aesd.Reachable.inv` — the invariant holds in every reachable state.
-/

namespace Aesd

variable {fsl : FixedSizeLlseek} {s s' : Driver} {q : List AesdBufferEntry} {buf : UserBuf}
  {env : WriteEnv}

/-- A write, for any newline scan, while the lock is held: it is interrupted or does not
return. -/
lemma aesdWriteWith_of_lock {scan : Block → ℕ → Option Bool} {fPos : ℤ} (hlock : s.lock = true) :
    aesdWriteWith scan s fPos buf env =
      if env.interrupted then some ({ ret := -ERESTARTSYS, fPos }, s) else none := by
  cases hint : env.interrupted <;> simp [aesdWriteWith, mutexLockInterruptible, hlock, hint]

/-- The write got the lock and its allocations, the newline scan `scan` answered `found`, and the
write stored what it accumulated. -/
structure WriteDone (scan : Block → ℕ → Option Bool) (s : Driver) (fPos : ℤ) (buf : UserBuf)
    (env : WriteEnv) (found : Bool) (reply : Reply) (s' : Driver) : Prop where
  lock_eq : s.lock = false
  allocates : Allocates s buf env
  found_eq : scan (scannedBlock s buf env) (accumulated s buf env).length = some found
  reply_eq : reply = { ret := env.copied buf, fPos := signed64 (fPos + env.copied buf) }
  stored : Stored s (accumulated s buf env) found s'

/-- The write failed and changed nothing. -/
structure WriteFailed (s : Driver) (fPos : ℤ) (reply : Reply) (s' : Driver) : Prop where
  ret_eq : reply.ret = -ERESTARTSYS ∨ reply.ret = -ENOMEM
  fPos_eq : reply.fPos = fPos
  state_eq : s' = s

/-- **The effects of a write that returns.** -/
lemma aesdWriteWith_cases {scan : Block → ℕ → Option Bool} {fPos : ℤ} {reply : Reply}
    (hI : Inv s q [])
    (h : aesdWriteWith scan s fPos buf env = some (reply, s')) :
    (∃ found, WriteDone scan s fPos buf env found reply s') ∨ WriteFailed s fPos reply s' := by
  cases hlock : s.lock with
  | true =>
    rw [aesdWriteWith_of_lock hlock] at h
    split_ifs at h
    obtain ⟨rfl, rfl⟩ := Prod.mk.inj (Option.some.inj h)
    exact .inr ⟨.inl rfl, rfl, rfl⟩
  | false =>
    by_cases ha : Allocates s buf env
    · cases hscan : scan (scannedBlock s buf env) (accumulated s buf env).length with
      | none =>
        obtain ⟨t, hfault, -⟩ := aesdWriteLocked_of_fault fPos hI ha hscan
        simp [aesdWriteWith, mutexLockInterruptible, hlock, ha.not_interrupted, hfault] at h
      | some found =>
        obtain ⟨t, hrun, hstored⟩ := aesdWriteWith_of_found fPos hI hlock ha hscan
        rw [hrun] at h
        obtain ⟨rfl, rfl⟩ := Prod.mk.inj (Option.some.inj h)
        exact .inl ⟨found, hlock, ha, hscan, rfl, hstored⟩
    · rw [aesdWriteWith_of_not_allocates scan fPos hI hlock ha] at h
      obtain ⟨rfl, rfl⟩ := Prod.mk.inj (Option.some.inj h)
      refine .inr ⟨?_, rfl, rfl⟩
      cases env.interrupted with
      | true => exact .inl rfl
      | false => exact .inr rfl

/-! ## Writes that fault -/

/-- The write gets its allocations, and its block is empty: its newline scan faults. -/
structure Faults (s : Driver) (buf : UserBuf) (env : WriteEnv) : Prop where
  allocates : Allocates s buf env
  length_eq : buf.bytes.length + s.pending.length = 0

/-- The newline scan faults if the block is empty. -/
lemma scanBlock_eq_none {size : ℕ} :
    scanBlock (scannedBlock s buf env) size = none ↔ buf.bytes.length + s.pending.length = 0 := by
  rw [scanBlock, scannedBlock]
  split_ifs with h
  · exact iff_of_true rfl h
  · exact iff_of_false (by simp) h

/-- **A write with a free lock returns, unless it faults.** -/
lemma aesdWrite_eq_none (hI : Inv s q []) (hlock : s.lock = false) {fPos : ℤ} :
    aesdWrite s fPos buf env = none ↔ Faults s buf env := by
  by_cases ha : Allocates s buf env
  · cases hscan : scanBlock (scannedBlock s buf env) (accumulated s buf env).length with
    | none =>
      obtain ⟨t, hfault, -⟩ := aesdWriteLocked_of_fault fPos hI ha hscan
      refine iff_of_true ?_ ⟨ha, scanBlock_eq_none.mp hscan⟩
      simp [aesdWrite, aesdWriteWith, mutexLockInterruptible, hlock, ha.not_interrupted, hfault]
    | some found =>
      obtain ⟨t, hrun, -⟩ := aesdWriteWith_of_found fPos hI hlock ha hscan
      refine iff_of_false (by rw [aesdWrite, hrun]; simp) fun hf => ?_
      rw [scanBlock_eq_none.mpr hf.length_eq] at hscan
      exact absurd hscan (by simp)
  · rw [aesdWrite, aesdWriteWith_of_not_allocates scanBlock fPos hI hlock ha]
    exact iff_of_false (by simp) fun hf => ha hf.allocates

/-- **A write that faults** leaves the lock held. -/
lemma Faults.exists_fault (h : Faults s buf env) (hI : Inv s q []) (hlock : s.lock = false)
    (fPos : ℤ) : ∃ s', aesdWriteFault s fPos buf env = some s' ∧ Faulted s s' := by
  obtain ⟨t, hfault, hfaulted⟩ :=
    aesdWriteLocked_of_fault fPos hI h.allocates (scanBlock_eq_none.mpr h.length_eq)
  refine ⟨t, ?_, hfaulted⟩
  simp only [aesdWriteFault, mutexLockInterruptible, hlock, h.allocates.not_interrupted,
    Bool.false_eq_true, if_false, hfault]

/-- Only a write that faults leaves a device after a fault. -/
lemma faults_of_aesdWriteFault {fPos : ℤ} (hI : Inv s q [])
    (h : aesdWriteFault s fPos buf env = some s') :
    s.lock = false ∧ Faults s buf env ∧ Faulted s s' := by
  have hint : env.interrupted = false := by
    by_contra hne
    rw [Bool.not_eq_false] at hne
    simp [aesdWriteFault, mutexLockInterruptible, hne] at h
  have hlock : s.lock = false := by
    by_contra hne
    rw [Bool.not_eq_false] at hne
    simp [aesdWriteFault, mutexLockInterruptible, hint, hne] at h
  have hlocked : aesdWriteLocked scanBlock s.locked fPos buf env = .error s' := by
    simp only [aesdWriteFault, mutexLockInterruptible, hlock, hint, Bool.false_eq_true, if_false] at h
    cases hrun : aesdWriteLocked scanBlock s.locked fPos buf env with
    | ok done => simp [hrun] at h
    | error t =>
      simp only [hrun, Option.some.injEq] at h
      rw [h]
  have hnone : aesdWrite s fPos buf env = none := by
    simp [aesdWrite, aesdWriteWith, mutexLockInterruptible, hlock, hint, hlocked]
  have hf := (aesdWrite_eq_none hI hlock).mp hnone
  obtain ⟨t, hfault, hfaulted⟩ := hf.exists_fault hI hlock fPos
  obtain rfl := Option.some.inj (hfault.symm.trans h)
  exact ⟨hlock, hf, hfaulted⟩

/-! ## Calls -/

/-- A read that returns changes nothing. -/
lemma aesdRead_state {fPos : ℤ} {count : ℕ} {env : ReadEnv} {reply : Reply}
    (h : aesdRead s fPos count env = some (reply, s')) : s' = s := by
  cases hlock : s.lock with
  | true =>
    cases hint : env.interrupted <;> simp [aesdRead, mutexLockInterruptible, hlock, hint] at h
    exact h.2.symm
  | false =>
    obtain ⟨r, hr⟩ := aesdRead_returns hlock fPos count env
    rw [hr] at h
    exact (Prod.mk.inj (Option.some.inj h)).2.symm

/-- **The effects of a call that returns**: the device is as it was, but for the lock it may leave
held, or the call is a write that stored what it accumulated. -/
lemma exec_cases {c : Call} {reply : Reply} (hI : Inv s q [])
    (h : exec fsl s c = some (reply, s')) :
    s' = s ∨ (s.lock = false ∧ s' = s.locked) ∨
      ∃ fPos buf env found, c = .write fPos buf env ∧
        WriteDone scanBlock s fPos buf env found reply s' := by
  cases c with
  | read fPos count env => exact .inl (aesdRead_state h)
  | write fPos buf env =>
    rcases aesdWriteWith_cases hI h with ⟨found, hd⟩ | hf
    · exact .inr (.inr ⟨fPos, buf, env, found, rfl, hd⟩)
    · exact .inl hf.state_eq
  | llseek fPos offset whence => exact .inl (Prod.mk.inj (Option.some.inj h)).2.symm
  | ioctl fPos cmd env =>
    rcases aesdIoctl_state h with hs | hs
    · exact .inl hs
    · exact .inr (.inl hs)

/-- **Every call keeps the invariant.** -/
lemma exec_inv {c : Call} {reply : Reply} (hI : Inv s q [])
    (h : exec fsl s c = some (reply, s')) : ∃ q', Inv s' q' [] := by
  rcases exec_cases hI h with rfl | ⟨-, rfl⟩ | ⟨fPos, buf, env, found, -, hd⟩
  · exact ⟨q, hI⟩
  · exact ⟨q, hI.set_lock true⟩
  · exact hd.stored.inv

/-- The invariant holds after a successful initialisation. -/
lemma Initialised.inv (h : Initialised s) : Inv s [] [] := by
  obtain ⟨g, rfl⟩ := initialised_iff.mp h
  exact inv_initialDriver g

/-- **The invariant holds in every reachable state.** -/
lemma Reachable.inv (h : Reachable fsl s) : ∃ q, Inv s q [] := by
  obtain ⟨s₀, cs, h0, hrun⟩ := h
  refine hrun.invariant (I := fun t => ∃ q, Inv t q []) ⟨[], h0.inv⟩ ?_
  rintro t l u ⟨q, hI⟩ hstep
  exact exec_inv hI hstep

end Aesd
