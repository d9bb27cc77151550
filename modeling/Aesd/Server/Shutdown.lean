import Aesd.Server.Process
import Aesd.Server.Progress

set_option relaxedAutoImplicit false
set_option autoImplicit false

/-!
# A server that a signal does not stop

On a signal `main` leaves its loop and joins the threads of the sessions before it returns. A session
whose seek request has left the mutex of the device held waits for that mutex in its next read, and
nobody gives it back. So `main` does not return, however many signals it gets, unless one of them
interrupts this very read. That `main` comes to a freed node on its way is not excluded.

## Main definitions

* `Aesd.Waiting` — a session waits in a read for the mutex of the device.
* `Aesd.Uninterrupted` — no step interrupts its read.

## Main results

* `Aesd.Waiting.step` — it goes on waiting.
* `Aesd.process_never_exits` — `main` does not return.
-/

namespace Aesd

open Transition

variable {fsl : FixedSizeLlseek} {client : ℕ → List Byte} {t u : Aesdsocket} {tid : ℕ}
  {l : AesdsocketEvent}

/-- The session of a running thread has room for a byte, and is in a read of its device, whose mutex
is held. -/
structure Waiting (t : Aesdsocket) (tid : ℕ) : Prop where
  running : t.main.threads tid ≠ none
  reading : ∃ st, (t.sess tid).pc = .read st ∧ (st.stored.length : ℤ) ≠ st.bufsize - 1
  opened : (t.sess tid).fPos.isSome
  lock_eq : t.shared.dev.lock = true

/-- The step does not interrupt a read of the session. -/
def Uninterrupted (tid : ℕ) (l : AesdsocketEvent) : Prop :=
  ∀ env readEnv, l = .session tid (.read env readEnv) → readEnv.interrupted = false

/-- The nodes of `main` are in order at every time, or its run is doomed. -/
lemma mainOk_of_process {dev : Driver} {slhFirst localData : Ptr} {ls : List AesdsocketEvent}
    (hrun : Run (AesdsocketStep fsl client) (.start dev slhFirst localData) ls t) :
    MainOk [] t.main ∨ Doomed t.main := by
  refine hrun.invariant (I := fun t => MainOk [] t.main ∨ Doomed t.main)
    (.inl (mainOk_start slhFirst localData)) ?_
  intro t l u ht hstep
  obtain ⟨e, main, -, -, hmain, rfl⟩ | ⟨tid, e, g, s, -, -, -, rfl⟩ := aesdsocketStep_cases hstep
  · exact mainOk_or_doomed ht hmain
  · have hsame : (t.onSession tid e).main = t.main := (t.onSession_frame tid e).1
    exact hsame ▸ ht

/-- **A session that waits goes on waiting**: no other thread gives the mutex of the device back. -/
lemma Waiting.step (h : Waiting t tid) (hl : Uninterrupted tid l)
    (hstep : AesdsocketStep fsl client t l u) :
    Waiting u tid ∧ u.sess tid = t.sess tid ∧ u.shared.dev = t.shared.dev := by
  obtain ⟨e, main, rfl, hallows, hmain, rfl⟩ | ⟨tid', e, g, s, rfl, -, hs, rfl⟩ :=
    aesdsocketStep_cases hstep
  · have hshared := (t.onMain_frame client e).1
    have hsess : (t.onMain client e).sess tid = t.sess tid := by
      rcases t.onMain_sess client e tid with hsame | ⟨rfl, -⟩
      · exact hsame
      · exact absurd (threads_of_pthreadCreate hmain) h.running
    have hrunning : main.threads tid ≠ none := by
      intro hidle
      rcases mainStep_running hmain hidle with hnone | rfl
      · exact h.running hnone
      · obtain ⟨st, hpc, -⟩ := h.reading
        have hdone : (t.sess tid).pc.isDone = true := hallows
        rw [hpc] at hdone
        exact absurd hdone Bool.false_ne_true
    have hdev : (t.onMain client e).shared.dev = t.shared.dev := by rw [hshared]
    refine ⟨⟨hrunning, ?_, ?_, hdev.symm ▸ h.lock_eq⟩, hsess, hdev⟩
    · exact hsess.symm ▸ h.reading
    · exact hsess.symm ▸ h.opened
  · have hdev := dev_of_lock h.lock_eq hs
    obtain ⟨hmain, hsess, -⟩ := t.onSession_frame tid' e
    rcases eq_or_ne tid tid' with rfl | hne
    · -- its own read does not return
      obtain ⟨st, hpc, hroom⟩ := h.reading
      obtain ⟨p, hp⟩ := Option.isSome_iff_exists.mp h.opened
      cases sessionStep_move hs with
      | @readFull st' env readEnv hmove hgrow =>
        rw [hpc] at hmove
        injection hmove with hsame
        rw [← hsame, rutGrow, if_neg hroom] at hgrow
        exact absurd hgrow (by simp)
      | read hmove hgrow hread =>
        rw [hp, deviceRead, aesdRead_of_lock h.lock_eq p 1 (hl _ _ rfl)] at hread
        exact absurd hread (by simp)
      | _ hmove => exact absurd (hpc.symm.trans hmove) (by simp)
    · have hself : Function.update (t.onSession tid' e).sess tid' s tid = t.sess tid := by
        rw [Function.update_of_ne hne, hsess]
      refine ⟨⟨?_, ?_, ?_, ?_⟩, hself, hdev⟩
      · show (t.onSession tid' e).main.threads tid ≠ none
        rw [hmain]
        exact h.running
      · show ∃ st, (Function.update (t.onSession tid' e).sess tid' s tid).pc = .read st ∧ _
        rw [hself]
        exact h.reading
      · show (Function.update (t.onSession tid' e).sess tid' s tid).fPos.isSome
        rw [hself]
        exact h.opened
      · exact (congrArg Driver.lock hdev).trans h.lock_eq

/-- **`main` does not return.** Take any run of the whole process, with any outcome of every call,
to a state in which a session waits in a read for the mutex of the device. However it goes on, with
any signals, new clients and failures, as long as this one read is not interrupted: the session
waits, the device stays as it is, and `main` does not return. -/
theorem process_never_exits (fsl : FixedSizeLlseek) {dev : Driver} {slhFirst localData : Ptr}
    {ls ks : List AesdsocketEvent}
    (hrun : Run (AesdsocketStep fsl client) (.start dev slhFirst localData) ls t)
    (hwaiting : Waiting t tid)
    (hrun' : Run (guarded (fun _ l => Uninterrupted tid l) (AesdsocketStep fsl client)) t ks u) :
    Waiting u tid ∧ u.sess tid = t.sess tid ∧ u.shared.dev = t.shared.dev ∧
      u.main.pc ≠ .exited := by
  have hinv : Waiting u tid ∧ u.sess tid = t.sess tid ∧ u.shared.dev = t.shared.dev := by
    refine hrun'.invariant (I := fun u => Waiting u tid ∧ u.sess tid = t.sess tid ∧
      u.shared.dev = t.shared.dev) ⟨hwaiting, rfl, rfl⟩ ?_
    rintro v l w ⟨hv, hsess, hdev⟩ ⟨hl, hstep⟩
    obtain ⟨hw, hsess', hdev'⟩ := hv.step hl hstep
    exact ⟨hw, hsess'.trans hsess, hdev'.trans hdev⟩
  refine ⟨hinv.1, hinv.2.1, hinv.2.2, fun hpc => ?_⟩
  exact hinv.1.running (threads_of_exited (mainOk_of_process (hrun.append hrun'.of_guarded)) hpc tid)

instance (t : Aesdsocket) (tid : ℕ) : Decidable (Waiting t tid) :=
  decidable_of_iff ((t.main.threads tid).isSome ∧
      (match (t.sess tid).pc with
        | .read st => decide ((st.stored.length : ℤ) ≠ st.bufsize - 1)
        | _ => false) = true ∧ (t.sess tid).fPos.isSome ∧ t.shared.dev.lock = true) <| by
    constructor
    · rintro ⟨hrunning, hreading, hopened, hlock⟩
      refine ⟨Option.isSome_iff_ne_none.mp hrunning, ?_, hopened, hlock⟩
      cases hpc : (t.sess tid).pc with
      | read st =>
        rw [hpc] at hreading
        exact ⟨st, rfl, of_decide_eq_true hreading⟩
      | _ =>
        rw [hpc] at hreading
        exact absurd hreading Bool.false_ne_true
    · intro h
      obtain ⟨st, hpc, hroom⟩ := h.reading
      refine ⟨Option.isSome_iff_ne_none.mpr h.running, ?_, h.opened, h.lock_eq⟩
      rw [hpc]
      exact decide_eq_true hroom

/-- `main` accepts one client and walks its list; the session receives the request to seek to byte `0`
of command `0`, makes it, and starts to reply. -/
def stuckClient : List AesdsocketEvent :=
  List.map AesdsocketEvent.main (firstSession ++ List.replicate 4 .next) ++
    List.map (AesdsocketEvent.session 1)
      (.malloc (some 0) :: List.replicate 23 (.recv grown .ok) ++
        [.lock true, .openDevice true, .ioctl false true, .malloc (some 0)])

/-- A signal arrives, and `main` comes to join the thread. -/
def stopping : List AesdsocketEvent :=
  List.map AesdsocketEvent.main [.signal, .next, .next, .next, .malloc none, .next]

/-- On a fresh device `main` has not returned after the signal. -/
theorem process_never_exits_stuck_client :
    ∃ t u, Run (AesdsocketStep fixedSizeLlseek fun _ => iocPfx ++ [58, 48, 44, 48, 10])
        (.start (initialDriver 0) none none) stuckClient t ∧
      Run (AesdsocketStep fixedSizeLlseek fun _ => iocPfx ++ [58, 48, 44, 48, 10]) t stopping u ∧
      u.main.caughtSignal = true ∧ Waiting u 1 ∧ u.main.pc ≠ .exited := by
  have hfold : ((stuckClient.foldlM (aesdsocketStep fixedSizeLlseek fun _ =>
      iocPfx ++ [58, 48, 44, 48, 10]) (.start (initialDriver 0) none none)).map fun t =>
        (decide (Waiting t 1), (stopping.foldlM (aesdsocketStep fixedSizeLlseek fun _ =>
          iocPfx ++ [58, 48, 44, 48, 10]) t).map (·.main.caughtSignal))) =
      some (true, some true) := by
    decide +kernel
  obtain ⟨t, ht, hseen⟩ := Option.map_eq_some_iff.mp hfold
  obtain ⟨hwaiting, hu⟩ := Prod.mk.inj hseen
  obtain ⟨u, hu, hsignal⟩ := Option.map_eq_some_iff.mp hu
  have hrun : Run (AesdsocketStep fixedSizeLlseek fun _ => iocPfx ++ [58, 48, 44, 48, 10])
      (.start (initialDriver 0) none none) stuckClient t := .of_foldlM (fun _ _ _ h => h) ht
  have hrun' : Run (AesdsocketStep fixedSizeLlseek fun _ => iocPfx ++ [58, 48, 44, 48, 10]) t
      stopping u := .of_foldlM (fun _ _ _ h => h) hu
  have hguard : ∀ l ∈ stopping, Uninterrupted 1 l := by
    rintro l hl env readEnv rfl
    simp [stopping] at hl
  obtain ⟨hw, -, -, hpc⟩ := process_never_exits fixedSizeLlseek hrun (of_decide_eq_true hwaiting)
    (hrun'.guard hguard)
  exact ⟨t, u, hrun, hrun', hsignal, hw, hpc⟩

end Aesd
