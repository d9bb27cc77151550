import Aesd.Lib.Linearization
import Aesd.Server.Echo
import Aesd.Server.Transfer

set_option relaxedAutoImplicit false
set_option autoImplicit false

/-!
# The sessions are serializable

A session touches the device and the mutex only between the step that takes the mutex and the one
that gives it back. Every run of the server, with any outcome of every system call, therefore ends
in the state of a serial run: the sessions first receive their lines, and then the ones that took
the mutex go through their critical sections one after the other.

## Main definitions

* `Aesd.Pc.phase` — where a session is with respect to its critical section.
* `Aesd.receiving`, `Aesd.criticalSection` — the steps before the critical sections, and those of
  one session from the mutex on.
* `Aesd.sessionProtocol` — the sessions as threads with one mutex.

## Main results

* `Aesd.exists_serial_run` — the serial run, for the steps that meet a condition.
* `Aesd.sessions_serializable` — every run of the server is serializable.
-/

namespace Aesd

open Transition CriticalSections

/-- Where a session is with respect to its critical section. -/
def Pc.phase : Pc → Phase
  | .callRecv => .before
  | .recv _ => .before
  | .takeMutex _ => .before
  | .done => .after
  | _ => .inside

/-- The step takes the mutex. -/
def Event.isLock : Event → Bool
  | .lock ok => ok
  | _ => false

variable {n : ℕ}

/-- The steps of the sessions before their critical sections, in the order of the run. -/
def receiving (ls : List (Fin n × Event)) : List (Fin n × Event) :=
  preparation Event.isLock [] ls

/-- The steps of a session from the one that takes the mutex on. -/
def criticalSection (ls : List (Fin n × Event)) (i : Fin n) : List (Fin n × Event) :=
  sectionOf Event.isLock ls i

/-- The steps of the run in a serial order. -/
def serial (ls : List (Fin n × Event)) : List (Fin n × Event) :=
  receiving ls ++ (lockOrder ls).flatMap (criticalSection ls)

/-- The order in which the sessions took the mutex. -/
lemma order_isLock (ls : List (Fin n × Event)) : order Event.isLock ls = lockOrder ls := by
  refine List.filterMap_congr fun l _ => ?_
  obtain ⟨i, e⟩ := l
  cases e with
  | lock taken => cases taken <;> rfl
  | _ => rfl

variable {ι : Type} {fsl : FixedSizeLlseek} {i : ι} {g g' : Shared ι} {s s' : Session} {e : Event}

/-- Receiving does not come into the critical section. -/
lemma afterRecv_phase (s : Session) (o : RutOutcome) : (s.afterRecv o).pc.phase ≠ .inside := by
  unfold Session.afterRecv
  split <;> simp [Pc.phase]

/-- Replying stays in the critical section. -/
lemma afterRead_phase (s : Session) (o : RutOutcome) : (s.afterRead o).pc.phase = .inside := by
  unfold Session.afterRead
  split
  · rfl
  · split_ifs
    · rfl
    · split <;> rfl
    · rfl

/-- **A step before the critical section** that does not take the mutex neither depends on what the
sessions share nor changes it. -/
lemma sessionStep_before (h : sessionStep fsl i g s e = some (g', s'))
    (hphase : s.pc.phase = .before) (hlock : e.isLock = false) :
    g' = g ∧ s'.pc.phase ≠ .inside ∧ ∀ h : Shared ι, sessionStep fsl i h s e = some (h, s') := by
  cases sessionStep_move h with
  | callRecv hpc => exact ⟨rfl, afterRecv_phase _ _, fun h => by simp [sessionStep, hpc]⟩
  | recvFull hpc hgrow =>
    exact ⟨rfl, afterRecv_phase _ _, fun h => by simp [sessionStep, hpc, hgrow]⟩
  | recv hpc hgrow => exact ⟨rfl, afterRecv_phase _ _, fun h => by simp [sessionStep, hpc, hgrow]⟩
  | lock hpc hfree => exact absurd hlock (by simp [Event.isLock])
  | lockFailed hpc => exact ⟨rfl, by simp [Pc.phase], fun h => by simp [sessionStep, hpc]⟩
  | _ hpc => exact absurd hphase (by simp [Pc.phase, hpc])

/-- **The step that takes the mutex** finds it free and enters the critical section. -/
lemma sessionStep_lock (h : sessionStep fsl i g s e = some (g', s')) (hlock : e.isLock = true) :
    s.pc.phase = .before ∧ s'.pc.phase = .inside ∧ g.mutex = none ∧ g'.mutex = some i := by
  cases sessionStep_move h with
  | lock hpc hfree => exact ⟨by simp [Pc.phase, hpc], rfl, hfree, rfl⟩
  | _ => exact absurd hlock (by simp [Event.isLock])

/-- **A step inside the critical section** stays inside and keeps the mutex, or ends the
session. -/
lemma sessionStep_inside (h : sessionStep fsl i g s e = some (g', s'))
    (hphase : s.pc.phase = .inside) :
    s'.pc.phase ≠ .before ∧ (s'.pc.phase = .inside → g'.mutex = g.mutex) := by
  have hread : ∀ (s : Session) (o : RutOutcome), (s.afterRead o).pc.phase ≠ .before := fun s o => by
    rw [afterRead_phase]
    simp
  cases sessionStep_move h with
  | openDevice hpc =>
    refine ⟨?_, fun _ => rfl⟩
    unfold afterOpen
    split <;> simp [Pc.phase]
  | callRead hpc => exact ⟨hread _ _, fun _ => rfl⟩
  | readFull hpc hgrow => exact ⟨hread _ _, fun _ => rfl⟩
  | read hpc hgrow hdev => exact ⟨hread _ _, fun _ => rfl⟩
  | unlock hpc => exact ⟨by simp [Pc.phase], fun h => absurd h (by simp [Pc.phase])⟩
  | callRecv hpc | recvFull hpc hgrow | recv hpc hgrow | lock hpc hfree | lockFailed hpc =>
    exact absurd hphase (by simp [Pc.phase, hpc])
  | _ => exact ⟨by simp [Pc.phase], fun _ => rfl⟩

/-- A session that is done takes no step. -/
lemma sessionStep_after (h : sessionStep fsl i g s e = some (g', s')) : s.pc.phase ≠ .after := by
  intro hphase
  have hpc : s.pc = .done := by
    revert hphase
    cases s.pc <;> simp [Pc.phase]
  simp [sessionStep, hpc] at h

/-- The steps that meet a condition on the device, the place of the session and the outcome. -/
def Meets (C : Driver → Pc → Event → Prop) (t : Server n) (l : Fin n × Event) : Prop :=
  C t.shared.dev (t.sess l.1).pc l.2

/-- The sessions as threads with one mutex. Before a critical section the condition on the steps
does not depend on the device. -/
def sessionProtocol (n : ℕ) (fsl : FixedSizeLlseek) (C : Driver → Pc → Event → Prop)
    (hC : ∀ dev dev' pc e, pc.phase = .before → C dev pc e → C dev' pc e) :
    Protocol (Fin n) (Shared (Fin n)) Session Event where
  step i g s e g' s' := C g.dev s.pc e ∧ sessionStep fsl i g s e = some (g', s')
  isLock := Event.isLock
  phase s := s.pc.phase
  holder g := g.mutex
  before_step h hphase hlock := by
    obtain ⟨heq, hnot, hany⟩ := sessionStep_before h.2 hphase hlock
    exact ⟨heq, hnot, fun g => ⟨hC _ _ _ _ hphase h.1, hany g⟩⟩
  lock_step h hlock := sessionStep_lock h.2 hlock
  inside_step h hphase := sessionStep_inside h.2 hphase
  after_step h := sessionStep_after h.2

/-- The server as threads. -/
def Server.threads (t : Server n) : Threads (Fin n) (Shared (Fin n)) Session := ⟨t.shared, t.sess⟩

/-- Threads as a server. -/
def Server.ofThreads (t : Threads (Fin n) (Shared (Fin n)) Session) : Server n := ⟨t.shared, t.loc⟩

section Runs

variable {C : Driver → Pc → Event → Prop}
  {hC : ∀ dev dev' pc e, pc.phase = .before → C dev pc e → C dev' pc e}
  {ls : List (Fin n × Event)} {t u : Server n}

variable (hC) in
/-- A run of the server is a run of the threads. -/
lemma run_threads (h : Run (guarded (Meets C) (ServerStep fsl)) t ls u) :
    Run (sessionProtocol n fsl C hC).Step t.threads ls u.threads := by
  refine h.map (f := Server.threads) ?_
  rintro t l u ⟨hmeets, g, s, hstep, rfl⟩
  exact ⟨g, s, ⟨hmeets, hstep⟩, rfl⟩

/-- A run of the threads is a run of the server. -/
lemma run_ofThreads {v w : Threads (Fin n) (Shared (Fin n)) Session}
    (h : Run (sessionProtocol n fsl C hC).Step v ls w) :
    Run (guarded (Meets C) (ServerStep fsl)) (Server.ofThreads v) ls (Server.ofThreads w) := by
  refine h.map (f := Server.ofThreads) ?_
  rintro t l u ⟨g, s, ⟨hmeets, hstep⟩, rfl⟩
  exact ⟨hmeets, g, s, hstep, rfl⟩

/-- **The serial run** of the steps that meet a condition: first the steps before the critical
sections, which do not change what the sessions share, and then the critical sections. -/
theorem exists_serial_run (hC : ∀ dev dev' pc e, pc.phase = .before → C dev pc e → C dev' pc e)
    (ht : ∀ i, (t.sess i).pc.phase ≠ .inside)
    (h : Run (guarded (Meets C) (ServerStep fsl)) t ls u) :
    (lockOrder ls).Nodup ∧ ∃ v, Run (guarded (Meets C) (ServerStep fsl)) t (receiving ls) v ∧
      v.shared = t.shared ∧ (∀ i, (v.sess i).pc.phase ≠ .inside) ∧
      Run (guarded (Meets C) (ServerStep fsl)) v
        ((lockOrder ls).flatMap (criticalSection ls)) u := by
  have hphase : ∀ i, (sessionProtocol n fsl C hC).phase (t.threads.loc i) ≠ .inside := ht
  have hthreads := run_threads hC h
  have hnodup := (Protocol.exclusive_of_run hphase hthreads).nodup
  obtain ⟨v, hprep, hsections⟩ := Protocol.serialize hphase hthreads
  obtain ⟨hshared, hbefore⟩ :=
    Protocol.run_before hphase hprep fun l hl => not_lock_of_mem_preparation hl
  rw [← order_isLock]
  exact ⟨hnodup, .ofThreads v, run_ofThreads hprep, hshared, hbefore, run_ofThreads hsections⟩

end Runs

/-- A session that starts is not in its critical section. -/
lemma start_phase (dev : Driver) (client : Fin n → List Byte) (i : Fin n) :
    ((Server.start dev client).sess i).pc.phase ≠ .inside := by
  simp [Server.start, Session.start, Pc.phase]

/-- **The sessions are serializable.** Take any run of any number of sessions, with any outcome of
every system call, from any device. No session takes the mutex twice. The steps of the run in serial
order, which has the steps of each session in their order, are a run to the same state: the steps
before the critical sections leave the device and the mutex as they were, and the critical sections
follow one after the other in the order of the mutex. A session ends as if it went through its
critical section alone, from the state in which the sessions before it have left the device.

**Proof sketch.** The steps of a session before it takes the mutex do not depend on what the
sessions share, and move to the front; all other steps are those of the session that holds the
mutex. -/
theorem sessions_serializable (fsl : FixedSizeLlseek) (dev : Driver) (client : Fin n → List Byte)
    {ls : List (Fin n × Event)} {t : Server n}
    (hrun : Run (ServerStep fsl) (Server.start dev client) ls t) :
    (lockOrder ls).Nodup ∧
      (serial ls).Perm ls ∧
      (∀ i, (serial ls).filter (fun l => l.1 = i) = ls.filter fun l => l.1 = i) ∧
      (∃ v, Run (ServerStep fsl) (Server.start dev client) (receiving ls) v ∧
        v.shared = ⟨dev, none⟩ ∧
        Run (ServerStep fsl) v ((lockOrder ls).flatMap (criticalSection ls)) t) ∧
      ∀ i pre post, lockOrder ls = pre ++ i :: post → ∃ v w,
        Run (ServerStep fsl) (Server.start dev client)
          (receiving ls ++ pre.flatMap (criticalSection ls)) v ∧
        v.shared.mutex = none ∧
        Run (SessionStep fsl i) (v.shared, v.sess i) ((criticalSection ls i).map Prod.snd)
          (w.shared, w.sess i) ∧
        Run (ServerStep fsl) w (post.flatMap (criticalSection ls)) t ∧ t.sess i = w.sess i := by
  have hC : ∀ (dev dev' : Driver) (pc : Pc) (e : Event), pc.phase = .before →
      (fun _ _ _ => True : Driver → Pc → Event → Prop) dev pc e → True := fun _ _ _ _ _ _ => trivial
  have hguard : Run (guarded (Meets fun _ _ _ => True) (ServerStep fsl))
      (Server.start dev client) ls t :=
    hrun.mono fun _ _ _ h => ⟨trivial, h⟩
  have hphase : ∀ i, (sessionProtocol n fsl _ hC).phase ((Server.start dev client).threads.loc i) ≠
      .inside := start_phase dev client
  have hthreads := run_threads hC hguard
  obtain ⟨hown, hperm⟩ := Protocol.serial_perm hphase hthreads
  have hserial : serial ls = preparation Event.isLock [] ls ++ sections Event.isLock ls := by
    rw [serial, ← order_isLock]
    rfl
  obtain ⟨hnodup, v, hprep, hshared, -, hsections⟩ := exists_serial_run hC hphase hguard
  refine ⟨hnodup, hserial ▸ hperm, hserial ▸ hown,
    ⟨v, hprep.of_guarded, hshared, hsections.of_guarded⟩, fun i pre post horder => ?_⟩
  rw [← order_isLock] at horder
  obtain ⟨v, w, hbefore, hfree, hself, hafter, hloc⟩ :=
    Protocol.exists_section hphase hthreads horder
  have hmine : ∀ l ∈ criticalSection ls i, l.1 = i := fun l hl => fst_of_mem_sectionOf hl
  refine ⟨.ofThreads v, .ofThreads w, (run_ofThreads hbefore).of_guarded, hfree, ?_,
    (run_ofThreads hafter).of_guarded, hloc⟩
  exact (Protocol.run_alone hself hmine).1.mono fun _ _ _ h => h.2

/-- Two sessions that receive an empty line each; the second takes the mutex before the first has
received its line, and opens the device after it. -/
def twoSessions : List (Fin 2 × Event) :=
  [(0, .malloc (some 0)), (1, .malloc (some 0)), (1, .recv ⟨none, false⟩ .ok), (1, .lock true),
    (0, .recv ⟨none, false⟩ .ok), (1, .openDevice true)]

/-- In the serial order of their steps both lines are received first. -/
theorem sessions_serializable_two :
    serial twoSessions = [(0, .malloc (some 0)), (1, .malloc (some 0)),
        (1, .recv ⟨none, false⟩ .ok), (0, .recv ⟨none, false⟩ .ok), (1, .lock true),
        (1, .openDevice true)] ∧
      ∃ t v : Server 2, Run (ServerStep fixedSizeLlseek) (.start (initialDriver 0) fun _ => [10])
          twoSessions t ∧
        Run (ServerStep fixedSizeLlseek) v [(1, .lock true), (1, .openDevice true)] t := by
  have hsome : (twoSessions.foldlM (serverStep fixedSizeLlseek)
      (.start (initialDriver 0) fun _ => [10])).isSome = true := by
    decide +kernel
  obtain ⟨t, hfold⟩ := Option.isSome_iff_exists.mp hsome
  have hrun := run_of_foldlM hfold
  obtain ⟨-, -, -, ⟨v, -, -, hsections⟩, -⟩ :=
    sessions_serializable fixedSizeLlseek (initialDriver 0) _ hrun
  exact ⟨rfl, t, v, hrun, hsections⟩

end Aesd
