import Aesd.Lib.Run
import Aesd.Server.Session
import Mathlib.Data.Fin.Basic
import Mathlib.Logic.IsEmpty.Basic

set_option relaxedAutoImplicit false
set_option autoImplicit false

/-!
# Timestamps

Built without the character device, the sessions share one open file with `timer_thread`, which
writes a timestamp to it whenever the timer of `main` fires. A session holds the mutex that
`start_socket_thread` gave it, `fd_mutex`, from before its write to the end of its reply.
`timer_thread` holds the member `lock` of the structure `td`, which `main` has set with
`td.lock = fd_mutex`: it is a mutex of its own, a copy of `fd_mutex` in its unlocked state.

A mutex excludes only the threads that lock the same object. The structure `td` is taken to exist as
long as the timer, although `main` declares it in a block that ends before the timer fires.

## Main definitions

* `Aesd.MutexObject`, `Aesd.FileThread`, `Aesd.mutexOf` — the mutexes, the threads, and which thread
  locks which mutex.
* `Aesd.FileServer`, `Aesd.fileStep` — the server without the device, and one step of a thread.
* `Aesd.FileMove` — what a step can do to the mutexes.
* `Aesd.Exclusive`, `Aesd.StampsOutside` — at most one thread holds its mutex; no timestamp is
  written while a session is replying.

## Main results

* `Aesd.fileStep_move` — a step is one of the moves.
* `Aesd.Holders.step`, `Aesd.OneHeld.step` — one step.
* `Aesd.timestamp_exclusion` — when timestamps and sessions exclude each other.
-/

namespace Aesd

open Transition

/-! ## The threads and their mutexes -/

/-- The mutex objects of `main`: `fd_mutex`, and the member `lock` of `td`. -/
inductive MutexObject where
  | fdMutex
  | tdLock
deriving DecidableEq

/-- The threads that write to the file: the sessions, and the firings of `timer_thread`. -/
inductive FileThread (ι κ : Type) where
  | session (i : ι)
  | timer (k : κ)
deriving DecidableEq

/-- The mutex a thread locks: the one that its `mutex` points to, or `td->lock`. -/
def mutexOf {ι κ : Type} : FileThread ι κ → MutexObject
  | .session _ => .fdMutex
  | .timer _ => .tdLock

/-- The place of a thread: its next system call. A timer has no `seekWrite`, `seekRead`, `ioctl` and
`read`. -/
inductive FilePhase where
  | lock
  | seekWrite
  | write
  | seekRead
  | ioctl
  | read
  | unlock
  | done
deriving DecidableEq

/-- The thread has locked its mutex and has not unlocked it. -/
def FilePhase.inside : FilePhase → Bool
  | .lock | .done => false
  | _ => true

/-- The file opened by `main`, with the file position that all threads share. -/
structure OpenFile where
  contents : List Byte
  fPos : ℕ

/-- A write appends, as the file is opened with `O_APPEND`, and leaves the position at the end. -/
def OpenFile.append (f : OpenFile) (bs : List Byte) : OpenFile :=
  ⟨f.contents ++ bs, f.contents.length + bs.length⟩

/-- The server built without the device: the holders of the mutexes, the places of the threads, and
the file. -/
structure FileServer (ι κ : Type) where
  mutex : MutexObject → Option (FileThread ι κ)
  phase : FileThread ι κ → FilePhase
  file : OpenFile

/-- The outcomes of the system calls: whether a mutex call or a read succeeds, and the number of
bytes written, `none` if the write fails or is not made. -/
inductive FileEvent where
  | lock (ok : Bool)
  | lseek
  | write (n : Option ℕ)
  | ioctl
  | read (ok : Bool)
  | unlock (ok : Bool)
deriving DecidableEq

variable {ι κ : Type}

/-- After the lock a session seeks and writes its line, unless it is a seek request; `timer_thread`
writes its timestamp. -/
def afterLock (text : FileThread ι κ → List Byte) : FileThread ι κ → FilePhase
  | .session i => if (parseSeekto (text (.session i))).isSome then .ioctl else .seekWrite
  | .timer _ => .write

/-- After its lock a thread is inside. -/
lemma afterLock_inside (text : FileThread ι κ → List Byte) (a : FileThread ι κ) :
    (afterLock text a).inside = true := by
  cases a with
  | session i =>
    simp only [afterLock]
    split_ifs <;> rfl
  | timer k => rfl

/-- After the write a session replies. -/
def afterWrite : FileThread ι κ → FilePhase
  | .session _ => .seekRead
  | .timer _ => .unlock

/-- `main` starts with an empty file and `fd_mutex` unlocked, and copies that state to `td.lock`. -/
def FileServer.start : FileServer ι κ where
  mutex _ := none
  phase _ := .lock
  file := ⟨[], 0⟩

variable [DecidableEq ι] [DecidableEq κ]

/-- One step of a thread whose line or timestamp is `text a`; `none` if the outcome is not one of
the step's, or the step blocks. -/
def fileStep (text : FileThread ι κ → List Byte) (t : FileServer ι κ) (a : FileThread ι κ)
    (e : FileEvent) : Option (FileServer ι κ) :=
  match t.phase a, e with
  | .lock, .lock ok =>
    if ok then
      if (t.mutex (mutexOf a)).isNone then
        some { t with
          mutex := Function.update t.mutex (mutexOf a) (some a)
          phase := Function.update t.phase a (afterLock text a) }
      else none
    else some { t with phase := Function.update t.phase a .done }
  | .seekWrite, .lseek =>
    some { t with
      phase := Function.update t.phase a .write
      file := { t.file with fPos := 0 } }
  | .write, .write n =>
    some { t with
      phase := Function.update t.phase a (afterWrite a)
      file := match n with
        | none => t.file
        | some n => t.file.append ((cString (text a)).take n) }
  | .seekRead, .lseek =>
    some { t with
      phase := Function.update t.phase a .read
      file := { t.file with fPos := 0 } }
  -- a regular file knows no such request, so the position stays
  | .ioctl, .ioctl => some { t with phase := Function.update t.phase a .read }
  | .read, .read ok =>
    if ok ∧ t.file.fPos < t.file.contents.length then
      some { t with file := { t.file with fPos := t.file.fPos + 1 } }
    else some { t with phase := Function.update t.phase a .unlock }
  | .unlock, .unlock ok =>
    some { t with
      mutex := if ok then Function.update t.mutex (mutexOf a) none else t.mutex
      phase := Function.update t.phase a .done }
  | _, _ => none

/-- One step of one thread. -/
def FileStep (text : FileThread ι κ → List Byte) (t : FileServer ι κ) (l : FileThread ι κ × FileEvent)
    (u : FileServer ι κ) : Prop :=
  fileStep text t l.1 l.2 = some u

/-- The moves of a thread, by what becomes of the mutexes: it takes its mutex, goes on while it holds
it, gives up without releasing it, or releases it. -/
inductive FileMove (t : FileServer ι κ) (a : FileThread ι κ) : FileEvent → FileServer ι κ → Prop
  | enter {p : FilePhase} {file : OpenFile} (hfree : t.mutex (mutexOf a) = none) :
      FileMove t a (.lock true)
        ⟨Function.update t.mutex (mutexOf a) (some a), Function.update t.phase a p, file⟩
  | stay {e : FileEvent} {p : FilePhase} {file : OpenFile} (ha : (t.phase a).inside = true) :
      FileMove t a e ⟨t.mutex, Function.update t.phase a p, file⟩
  | giveUp {e : FileEvent} {file : OpenFile} :
      FileMove t a e ⟨t.mutex, Function.update t.phase a .done, file⟩
  | leave {e : FileEvent} {file : OpenFile} (ha : (t.phase a).inside = true) :
      FileMove t a e
        ⟨Function.update t.mutex (mutexOf a) none, Function.update t.phase a .done, file⟩

/-- **A step is one of the moves.** -/
lemma fileStep_move {text : FileThread ι κ → List Byte} {t u : FileServer ι κ} {a : FileThread ι κ}
    {e : FileEvent} (h : fileStep text t a e = some u) : FileMove t a e u := by
  unfold fileStep at h
  split at h
  case h_1 ok hp =>
    split_ifs at h with hok hfree
    · obtain rfl := Option.some.inj h
      rw [hok]
      exact .enter (Option.isNone_iff_eq_none.mp hfree)
    · obtain rfl := Option.some.inj h
      exact .giveUp
  case h_6 ok hp =>
    have ha : (t.phase a).inside = true := by rw [hp]; rfl
    split_ifs at h with hread <;> obtain rfl := Option.some.inj h
    · have hstay : FileMove t a (.read ok) ⟨t.mutex, Function.update t.phase a (t.phase a),
          { t.file with fPos := t.file.fPos + 1 }⟩ := .stay ha
      rwa [Function.update_eq_self] at hstay
    · exact .stay ha
  case h_7 ok hp =>
    obtain rfl := Option.some.inj h
    cases ok with
    | false => exact .giveUp
    | true => exact .leave (by rw [hp]; rfl)
  case h_8 => exact absurd h (by simp)
  all_goals
    obtain rfl := Option.some.inj h
    exact .stay (by simp [*, FilePhase.inside])

/-! ## Exclusion -/

/-- At most one thread is between its lock and its unlock. -/
def Exclusive (t : FileServer ι κ) : Prop :=
  ∀ a b, (t.phase a).inside = true → (t.phase b).inside = true → a = b

/-- No timestamp is written while a session is between its write and the end of its reply. -/
def StampsOutside (text : FileThread ι κ → List Byte) (t : FileServer ι κ) : Prop :=
  ∀ k n u, FileStep text t (.timer k, .write n) u →
    ∀ i, t.phase (.session i) ≠ .seekRead ∧ t.phase (.session i) ≠ .read

/-- A lock is taken while the other mutex is free. -/
def LocksAlone (t : FileServer ι κ) (l : FileThread ι κ × FileEvent) : Prop :=
  l.2 = .lock true → ∀ m, m ≠ mutexOf l.1 → t.mutex m = none

/-- A thread that is inside holds its mutex. -/
def Holders (t : FileServer ι κ) : Prop :=
  ∀ a, (t.phase a).inside = true → t.mutex (mutexOf a) = some a

/-- At most one of the mutexes is held. -/
def OneHeld (t : FileServer ι κ) : Prop :=
  ∀ m m', t.mutex m ≠ none → t.mutex m' ≠ none → m = m'

/-- **One step: a thread that is inside holds its mutex.** -/
lemma Holders.step {text : FileThread ι κ → List Byte} {t u : FileServer ι κ}
    {l : FileThread ι κ × FileEvent} (ht : Holders t) (hstep : FileStep text t l u) :
    Holders u := by
  obtain ⟨a, e⟩ := l
  have hmove : FileMove t a e u := fileStep_move hstep
  intro b hb
  by_cases hba : b = a
  · subst hba
    cases hmove with
    | enter => exact Function.update_self ..
    | stay ha => exact ht b ha
    | giveUp | leave =>
      simp only [Function.update_self] at hb
      exact absurd hb (by decide)
  · cases hmove with
    | enter hfree =>
      simp only [Function.update_of_ne hba] at hb ⊢
      have hm : mutexOf b ≠ mutexOf a := by
        intro hm
        rw [← hm, ht b hb] at hfree
        exact Option.some_ne_none b hfree
      rw [Function.update_of_ne hm]
      exact ht b hb
    | stay | giveUp =>
      simp only [Function.update_of_ne hba] at hb ⊢
      exact ht b hb
    | leave ha =>
      simp only [Function.update_of_ne hba] at hb ⊢
      have hm : mutexOf b ≠ mutexOf a := by
        intro hm
        have hab := ht a ha
        rw [← hm, ht b hb] at hab
        exact hba (Option.some.inj hab)
      rw [Function.update_of_ne hm]
      exact ht b hb

/-- **One step that takes no lock beside another: at most one of the mutexes is held.** -/
lemma OneHeld.step {text : FileThread ι κ → List Byte} {t u : FileServer ι κ}
    {l : FileThread ι κ × FileEvent} (ht : OneHeld t) (halone : LocksAlone t l)
    (hstep : FileStep text t l u) : OneHeld u := by
  obtain ⟨a, e⟩ := l
  have hmove : FileMove t a e u := fileStep_move hstep
  cases hmove with
  | enter hfree =>
    have honly : ∀ m, Function.update t.mutex (mutexOf a) (some a) m ≠ none → m = mutexOf a := by
      intro m hm
      by_contra hne
      rw [Function.update_of_ne hne] at hm
      exact hm (halone rfl m hne)
    intro m m' hm hm'
    rw [honly m hm, honly m' hm']
  | stay | giveUp => exact ht
  | leave ha =>
    have hkept : ∀ m, Function.update t.mutex (mutexOf a) none m ≠ none → t.mutex m ≠ none := by
      intro m hm
      by_cases hma : m = mutexOf a
      · rw [hma, Function.update_self] at hm
        exact absurd rfl hm
      · rwa [Function.update_of_ne hma] at hm
    intro m m' hm hm'
    exact ht m m' (hkept m hm) (hkept m' hm')

omit [DecidableEq ι] [DecidableEq κ] in
/-- Threads that lock the same mutex are not inside together. -/
lemma Holders.eq_of_mutexOf_eq {t : FileServer ι κ} (ht : Holders t) {a b : FileThread ι κ}
    (ha : (t.phase a).inside = true) (hb : (t.phase b).inside = true)
    (hm : mutexOf a = mutexOf b) : a = b := by
  have hma := ht a ha
  rw [hm, ht b hb] at hma
  exact (Option.some.inj hma).symm

omit [DecidableEq ι] [DecidableEq κ] in
/-- With at most one mutex held, at most one thread is inside. -/
lemma Holders.exclusive {t : FileServer ι κ} (ht : Holders t) (hone : OneHeld t) :
    Exclusive t := by
  intro a b ha hb
  refine ht.eq_of_mutexOf_eq ha hb (hone _ _ ?_ ?_)
  · simp [ht a ha]
  · simp [ht b hb]

/-- A timestamp is written by a timer that is inside, so no session is. -/
lemma Exclusive.stampsOutside {t : FileServer ι κ} (text : FileThread ι κ → List Byte)
    (ht : Exclusive t) : StampsOutside text t := by
  intro k n u hstep i
  have hk : (t.phase (.timer k)).inside = true := by
    have h : fileStep text t (.timer k) (.write n) = some u := hstep
    unfold fileStep at h
    split at h <;> simp_all [FilePhase.inside]
  have hi : ∀ p, t.phase (.session i) = p → p.inside = false := by
    rintro p rfl
    by_contra hp
    have hthreads := ht _ _ hk (Bool.eq_true_of_not_eq_false hp)
    exact absurd hthreads (by simp)
  exact ⟨fun hp => absurd (hi _ hp) (by decide), fun hp => absurd (hi _ hp) (by decide)⟩

omit [DecidableEq ι] [DecidableEq κ] in
/-- At the start no thread is inside. -/
lemma Holders.start : Holders (FileServer.start : FileServer ι κ) := by
  intro a ha
  exact absurd ha (by simp [FileServer.start, FilePhase.inside])

/-- In a run whose locks are all taken while the other mutex is free, at most one thread is
inside. -/
lemma exclusive_of_locksAlone {text : FileThread ι κ → List Byte}
    {ls : List (FileThread ι κ × FileEvent)} {t : FileServer ι κ}
    (hrun : Run (guarded LocksAlone (FileStep text)) FileServer.start ls t) : Exclusive t := by
  have hinv : Holders t ∧ OneHeld t := by
    refine hrun.invariant (I := fun t => Holders t ∧ OneHeld t) ⟨.start, ?_⟩ ?_
    · intro m m' hm
      exact absurd rfl hm
    · rintro t l u ⟨hholders, hone⟩ ⟨halone, hstep⟩
      exact ⟨hholders.step hstep, hone.step halone hstep⟩
  exact hinv.1.exclusive hinv.2

/-- In every run, threads that lock the same mutex are not inside together: with sessions only, or
with the timer only, at most one thread is inside. -/
lemma exclusive_of_isEmpty {text : FileThread ι κ → List Byte}
    {ls : List (FileThread ι κ × FileEvent)} {t : FileServer ι κ} (hempty : IsEmpty ι ∨ IsEmpty κ)
    (hrun : Run (FileStep text) FileServer.start ls t) : Exclusive t := by
  have hholders : Holders t := hrun.invariant .start fun _ _ _ ht hstep => ht.step hstep
  have hm : ∀ a b : FileThread ι κ, mutexOf a = mutexOf b := by
    rintro (i | k) (j | l)
    · rfl
    · exact hempty.elim (fun h => (h.false i).elim) fun h => (h.false l).elim
    · exact hempty.elim (fun h => (h.false j).elim) fun h => (h.false k).elim
    · rfl
  exact fun a b ha hb => hholders.eq_of_mutexOf_eq ha hb (hm a b)

/-- A thread that finds its mutex free takes it. -/
lemma FileStep.lock (text : FileThread ι κ → List Byte) {t : FileServer ι κ}
    {a : FileThread ι κ} (hp : t.phase a = .lock) (hfree : t.mutex (mutexOf a) = none) :
    FileStep text t (a, .lock true)
      ⟨Function.update t.mutex (mutexOf a) (some a),
        Function.update t.phase a (afterLock text a), t.file⟩ := by
  simp [FileStep, fileStep, hp, hfree]

/-- A session and the timer take their locks one after the other. -/
lemma exists_run_not_exclusive (text : FileThread ι κ → List Byte) (i : ι) (k : κ) :
    ∃ ls t, Run (FileStep text) FileServer.start ls t ∧ ¬Exclusive t := by
  have hne : (FileThread.timer k : FileThread ι κ) ≠ .session i := by simp
  have hsession := FileStep.lock text (t := FileServer.start) (a := .session i) rfl rfl
  refine ⟨_, _, (Run.single hsession).snoc (FileStep.lock text (a := .timer k) ?_ rfl), ?_⟩
  · dsimp only
    rw [Function.update_of_ne hne]
    rfl
  · refine fun hexcl => hne (hexcl _ _ ?_ ?_) <;> dsimp only
    · rw [Function.update_self]
      exact afterLock_inside text _
    · rw [Function.update_of_ne hne.symm, Function.update_self]
      exact afterLock_inside text _

/-- **Timestamps and sessions.** In every run whose locks are all taken while the other mutex is
free, at most one thread is inside and no timestamp falls into a reply. Without that condition it
holds of every run only if there is no session or no firing of the timer, because a session and the
timer lock different objects.

**Proof sketch.** A thread that is inside holds its mutex, and while at most one of the two mutexes
is held at most one thread is inside. With a session and a firing, the two locks in sequence both
succeed. -/
theorem timestamp_exclusion (text : FileThread ι κ → List Byte) :
    (∀ ls t, Run (guarded LocksAlone (FileStep text)) FileServer.start ls t →
      Exclusive t ∧ StampsOutside text t) ∧
    ((∀ ls t, Run (FileStep text) FileServer.start ls t → Exclusive t ∧ StampsOutside text t) ↔
      IsEmpty ι ∨ IsEmpty κ) := by
  refine ⟨fun ls t hrun => ?_, fun hall => ?_, fun hempty ls t hrun => ?_⟩
  · have hexcl := exclusive_of_locksAlone hrun
    exact ⟨hexcl, hexcl.stampsOutside text⟩
  · by_contra hboth
    rw [not_or, not_isEmpty_iff, not_isEmpty_iff] at hboth
    obtain ⟨⟨i⟩, ⟨k⟩⟩ := hboth
    obtain ⟨ls, t, hrun, hnot⟩ := exists_run_not_exclusive text i k
    exact hnot (hall ls t hrun).1
  · have hexcl := exclusive_of_isEmpty hempty hrun
    exact ⟨hexcl, hexcl.stampsOutside text⟩

/-- The line `a` of the only session, and the timestamp `t` of the only firing. -/
def stampText : FileThread Unit Unit → List Byte
  | .session _ => [97, 10]
  | .timer _ => [116, 10]

/-- The session writes its line, and before it reads it back the timer takes its own lock. -/
def stampLabels : List (FileThread Unit Unit × FileEvent) :=
  [(.session (), .lock true), (.session (), .lseek), (.session (), .write (some 2)),
    (.timer (), .lock true)]

/-- Between the write of a session and its reply, the timer locks its copy of the mutex and writes a
timestamp. -/
theorem timestamp_exclusion_fails :
    ¬∀ (ls : List (FileThread Unit Unit × FileEvent)) t,
      Run (FileStep stampText) FileServer.start ls t → Exclusive t ∧ StampsOutside stampText t := by
  intro hall
  have hrun : Run (FileStep stampText) FileServer.start stampLabels _ :=
    .of_foldlM (f := fun t l => fileStep stampText t l.1 l.2) (fun _ _ _ h => h) rfl
  exact ((hall _ _ hrun).2 () (some 2) _ rfl ()).1 (by decide)

end Aesd
