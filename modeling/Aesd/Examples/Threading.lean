import Aesd.Lib.Run
import Mathlib.Algebra.Order.Ring.Nat
import Mathlib.Algebra.Ring.Int.Defs
import Mathlib.Data.List.Basic
import Mathlib.Data.List.Count
import Mathlib.Logic.Function.Basic
import Mathlib.Tactic.Common

set_option relaxedAutoImplicit false
set_option autoImplicit false

/-!
# Threads that wait, lock, wait and unlock

`start_thread_obtaining_mutex` of `examples/threading/threading.c` starts a thread that runs
`threadfunc`: it sleeps, locks a mutex, sleeps again, unlocks the mutex and notes its success in its
`thread_data`. Any number of threads may be started, with any mutexes, while others run.

`threadfunc` goes on whatever its calls return. After a lock that has failed it still unlocks the
mutex, which may free it although another thread holds it, and it notes its success all the same.

## Main definitions

* `Aesd.Threading.ThreadData`, `Aesd.Threading.Thread`, `Aesd.Threading.Pool` — the threads, and what
  they share.
* `Aesd.Threading.startThreadObtainingMutex`, `Aesd.Threading.threadfunc` — the two functions.
* `Aesd.Threading.Move` — what a step of a thread can do.
* `Aesd.Threading.LocksSucceed` — no lock of one mutex fails.

## Main results

* `Aesd.Threading.threadfunc_move` — a step of a thread is one of these.
* `Aesd.Threading.Holds.step`, `Aesd.Threading.Holders.step` — one step.
* `Aesd.Threading.threading_exclusion` — a mutex excludes its threads as long as no lock of it fails.
* `Aesd.Threading.threading_run` — what holds whatever fails.
-/

namespace Aesd

namespace Threading

open Transition

/-! ## The functions -/

variable {μ : Type}

/-- `struct thread_data`: the waits in microseconds, the mutex, and `thread_complete_success`. -/
structure ThreadData (μ : Type) where
  usWaitToObtainMutex : ℕ
  usWaitToReleaseMutex : ℕ
  mutex : μ
  threadCompleteSuccess : Bool

/-- The place of a thread in `threadfunc`: its next call, or the store after them. -/
inductive Place where
  | waitToObtain
  | lock
  | waitToRelease
  | unlock
  | complete
  | returned
deriving DecidableEq

/-- The thread has called `pthread_mutex_lock` and has not called `pthread_mutex_unlock`. -/
def Place.inside : Place → Bool
  | .waitToRelease | .unlock => true
  | _ => false

/-- The steps a thread has still to take. -/
def Place.left : Place → ℕ
  | .waitToObtain => 5
  | .lock => 4
  | .waitToRelease => 3
  | .unlock => 2
  | .complete => 1
  | .returned => 0

/-- A thread with its data. -/
structure Thread (μ : Type) where
  data : ThreadData μ
  place : Place

/-- The threads in the order in which they were started, the holders of the mutexes, the number of
blocks allocated, and what the calls of `start_thread_obtaining_mutex` have returned. -/
structure Pool (μ : Type) where
  threads : List (Thread μ)
  holder : μ → Option ℕ
  blocks : ℕ
  returns : List Bool

/-- Before the first call. -/
def Pool.start : Pool μ := ⟨[], fun _ => none, 0, []⟩

/-- `1000 * wait_ms`, stored in a `useconds_t`. -/
def useconds (waitMs : ℤ) : ℕ := ((1000 * waitMs) % 2 ^ 32).toNat

/-- `start_thread_obtaining_mutex`. If `malloc` fails it returns `-1`, which is `true` as a `bool`;
if `pthread_create` fails the block is not freed. -/
def startThreadObtainingMutex (mutex : μ) (waitToObtainMs waitToReleaseMs : ℤ) (malloc create : Bool)
    (w : Pool μ) : Pool μ :=
  if malloc then
    let data := ⟨useconds waitToObtainMs, useconds waitToReleaseMs, mutex, false⟩
    if create then
      { w with
        threads := w.threads ++ [⟨data, .waitToObtain⟩]
        blocks := w.blocks + 1
        returns := w.returns ++ [true] }
    else { w with blocks := w.blocks + 1, returns := w.returns ++ [false] }
  else { w with returns := w.returns ++ [true] }

/-- The outcomes of the calls of `threadfunc`: whether `usleep` and `pthread_mutex_lock` succeed, and
whether `pthread_mutex_unlock` frees the mutex if the thread does not hold it. -/
inductive Event where
  | usleep (ok : Bool)
  | lock (ok : Bool)
  | unlock (freed : Bool)
  | complete
deriving DecidableEq

variable [DecidableEq μ]

/-- One step of `threadfunc` in a thread; `none` if the outcome is not one of the step's, or the step
blocks. Failures are only printed. -/
def threadfunc (w : Pool μ) (i : ℕ) (e : Event) : Option (Pool μ) :=
  match w.threads[i]? with
  | none => none
  | some th =>
    let go (place : Place) : Pool μ := { w with threads := w.threads.set i { th with place } }
    let m := th.data.mutex
    match th.place, e with
    | .waitToObtain, .usleep _ => some (go .lock)
    | .lock, .lock true =>
      if w.holder m = none then
        some { go .waitToRelease with holder := Function.update w.holder m (some i) }
      else none
    | .lock, .lock false => some (go .waitToRelease)
    | .waitToRelease, .usleep _ => some (go .unlock)
    | .unlock, .unlock freed =>
      some { go .complete with
        holder := if w.holder m = some i ∨ freed then Function.update w.holder m none
          else w.holder }
    | .complete, .complete =>
      some { w with
        threads := w.threads.set i
          { th with data := { th.data with threadCompleteSuccess := true }, place := .returned } }
    | _, _ => none

/-- A call of `start_thread_obtaining_mutex`, or a step of a thread. -/
inductive Label (μ : Type) where
  | start (mutex : μ) (waitToObtainMs waitToReleaseMs : ℤ) (malloc create : Bool)
  | thread (i : ℕ) (e : Event)

/-- The pool after such a step; `none` if it is not possible. -/
def poolStep (w : Pool μ) : Label μ → Option (Pool μ)
  | .start mutex waitToObtainMs waitToReleaseMs malloc create =>
    some (startThreadObtainingMutex mutex waitToObtainMs waitToReleaseMs malloc create w)
  | .thread i e => threadfunc w i e

/-- One step. -/
def Step (w : Pool μ) (l : Label μ) (u : Pool μ) : Prop := poolStep w l = some u

/-! ## What a step of a thread can do -/

/-- The steps of a thread: it becomes another one, with other holders of the mutexes. -/
inductive Move (w : Pool μ) (i : ℕ) (th : Thread μ) :
    Event → Thread μ → (μ → Option ℕ) → Prop
  | obtainWait {ok : Bool} (hp : th.place = .waitToObtain) :
      Move w i th (.usleep ok) { th with place := .lock } w.holder
  | lock (hp : th.place = .lock) (hfree : w.holder th.data.mutex = none) :
      Move w i th (.lock true) { th with place := .waitToRelease }
        (Function.update w.holder th.data.mutex (some i))
  | lockFailed (hp : th.place = .lock) :
      Move w i th (.lock false) { th with place := .waitToRelease } w.holder
  | releaseWait {ok : Bool} (hp : th.place = .waitToRelease) :
      Move w i th (.usleep ok) { th with place := .unlock } w.holder
  | unlock {freed : Bool} (hp : th.place = .unlock)
      (hfree : w.holder th.data.mutex = some i ∨ freed) :
      Move w i th (.unlock freed) { th with place := .complete }
        (Function.update w.holder th.data.mutex none)
  | unlockOther (hp : th.place = .unlock) (hother : w.holder th.data.mutex ≠ some i) :
      Move w i th (.unlock false) { th with place := .complete } w.holder
  | complete (hp : th.place = .complete) :
      Move w i th .complete
        { th with data := { th.data with threadCompleteSuccess := true }, place := .returned }
        w.holder

variable {w u : Pool μ} {i j : ℕ} {th th' : Thread μ} {e : Event} {holder : μ → Option ℕ}

/-- **A step of a thread is one of the moves.** -/
lemma threadfunc_move (h : threadfunc w i e = some u) :
    ∃ th th' holder, w.threads[i]? = some th ∧ Move w i th e th' holder ∧
      u = { w with threads := w.threads.set i th', holder } := by
  unfold threadfunc at h
  split at h
  · exact absurd h (by simp)
  · next th hth =>
    refine ⟨th, ?_⟩
    dsimp only at h
    split at h
    case h_1 hp => exact ⟨_, _, hth, .obtainWait hp, (Option.some.inj h).symm⟩
    case h_2 hp =>
      split_ifs at h with hfree
      exact ⟨_, _, hth, .lock hp hfree, (Option.some.inj h).symm⟩
    case h_3 hp => exact ⟨_, _, hth, .lockFailed hp, (Option.some.inj h).symm⟩
    case h_4 hp => exact ⟨_, _, hth, .releaseWait hp, (Option.some.inj h).symm⟩
    case h_5 freed hp =>
      by_cases hfree : w.holder th.data.mutex = some i ∨ freed = true
      · rw [if_pos hfree] at h
        exact ⟨_, _, hth, .unlock hp hfree, (Option.some.inj h).symm⟩
      · rw [if_neg hfree] at h
        obtain ⟨hother, hfreed⟩ := not_or.mp hfree
        obtain rfl : freed = false := Bool.eq_false_iff.mpr hfreed
        exact ⟨_, _, hth, .unlockOther hp hother, (Option.some.inj h).symm⟩
    case h_6 hp => exact ⟨_, _, hth, .complete hp, (Option.some.inj h).symm⟩
    case h_7 => exact absurd h (by simp)

/-- A thread keeps its mutex. -/
lemma Move.mutex_eq (h : Move w i th e th' holder) : th'.data.mutex = th.data.mutex := by
  cases h <;> rfl

/-- A thread has one step less to take. -/
lemma Move.left_eq (h : Move w i th e th' holder) : th.place.left = th'.place.left + 1 := by
  cases h <;> simp only [*] <;> rfl

/-- The success is noted by the last step, and by no other. -/
lemma Move.success_iff (h : Move w i th e th' holder)
    (hth : th.data.threadCompleteSuccess = true ↔ th.place = .returned) :
    th'.data.threadCompleteSuccess = true ↔ th'.place = .returned := by
  cases h with
  | complete => exact iff_of_true rfl rfl
  | _ hp => rw [hp] at hth; simpa using hth

omit [DecidableEq μ] in
/-- The threads after a step of one of them. -/
lemma getElem?_set_thread (hth : w.threads[i]? = some th) (th' : Thread μ) (j : ℕ) :
    (w.threads.set i th')[j]? = if j = i then some th' else w.threads[j]? := by
  obtain ⟨hlt, -⟩ := List.getElem?_eq_some_iff.mp hth
  rw [List.getElem?_set]
  rcases eq_or_ne i j with rfl | hne
  · simp [hlt]
  · rw [if_neg hne, if_neg hne.symm]

omit [DecidableEq μ] in
/-- A call of `start_thread_obtaining_mutex` adds at most a thread at its start. -/
lemma start_cases (mutex : μ) (waitToObtainMs waitToReleaseMs : ℤ) (malloc create : Bool)
    (w : Pool μ) :
    ∃ new, (startThreadObtainingMutex mutex waitToObtainMs waitToReleaseMs malloc create w).threads =
        w.threads ++ new ∧
      (startThreadObtainingMutex mutex waitToObtainMs waitToReleaseMs malloc create w).holder =
        w.holder ∧
      ∀ th ∈ new, th.place = .waitToObtain ∧ th.data.threadCompleteSuccess = false := by
  unfold startThreadObtainingMutex
  split_ifs
  · exact ⟨_, rfl, rfl, by simp⟩
  · exact ⟨[], (List.append_nil _).symm, rfl, by simp⟩
  · exact ⟨[], (List.append_nil _).symm, rfl, by simp⟩

omit [DecidableEq μ] in
/-- A thread is one of the old ones or a new one. -/
lemma getElem?_append_thread {new : List (Thread μ)} (h : (w.threads ++ new)[i]? = some th) :
    w.threads[i]? = some th ∨ th ∈ new := by
  rw [List.getElem?_append] at h
  split_ifs at h with hlt
  · exact .inl h
  · exact .inr (List.mem_of_getElem? h)

/-! ## Exclusion -/

/-- The threads between the lock and the unlock of a mutex hold it. -/
def InsideHolds (m : μ) (w : Pool μ) : Prop :=
  ∀ i th, w.threads[i]? = some th → th.data.mutex = m → th.place.inside = true →
    w.holder m = some i

/-- The step is not a lock of this mutex that fails. -/
def LocksSucceed (m : μ) (w : Pool μ) (l : Label μ) : Prop :=
  ∀ i th, l = .thread i (.lock false) → w.threads[i]? = some th → th.data.mutex ≠ m

/-- **A step of a thread keeps the mutex with the threads inside**, unless it is a lock that fails.

**Proof sketch.** The thread that moves gets inside by taking the mutex. If it frees the mutex it was
inside, so that it is the holder, and no other thread is inside. -/
lemma InsideHolds.move {m : μ} (hw : InsideHolds m w) (hth : w.threads[i]? = some th)
    (hmove : Move w i th e th' holder) (hlock : e = .lock false → th.data.mutex ≠ m) :
    InsideHolds m { w with threads := w.threads.set i th', holder } := by
  intro j t ht hm hin
  change (w.threads.set i th')[j]? = some t at ht
  change holder m = some j
  rw [getElem?_set_thread hth] at ht
  split_ifs at ht with hji
  · obtain rfl := Option.some.inj ht
    subst hji
    rw [hmove.mutex_eq] at hm
    cases hmove with
    | lock =>
      rw [hm]
      exact Function.update_self ..
    | lockFailed => exact absurd hm (hlock rfl)
    | releaseWait hp => exact hw j th hth hm (by rw [hp]; rfl)
    | obtainWait | unlock | unlockOther | complete => exact absurd hin (by simp [Place.inside])
  · have hj : w.holder m = some j := hw j t ht hm hin
    cases hmove with
    | lock hp hfree =>
      have hne : m ≠ th.data.mutex := by
        rintro rfl
        rw [hj] at hfree
        exact absurd hfree (by simp)
      rw [Function.update_of_ne hne, hj]
    | unlock hp =>
      have hne : m ≠ th.data.mutex := by
        intro heq
        have hi : w.holder m = some i := hw i th hth heq.symm (by rw [hp]; rfl)
        exact hji (Option.some.inj (hj.symm.trans hi))
      rw [Function.update_of_ne hne, hj]
    | obtainWait | lockFailed | releaseWait | unlockOther | complete => exact hj

/-- One step. -/
lemma InsideHolds.step {m : μ} {l : Label μ} (hw : InsideHolds m w) (hl : LocksSucceed m w l)
    (hstep : Step w l u) : InsideHolds m u := by
  cases l with
  | start mutex waitToObtainMs waitToReleaseMs malloc create =>
    obtain rfl := Option.some.inj hstep
    obtain ⟨new, hthreads, hholder, hnew⟩ :=
      start_cases mutex waitToObtainMs waitToReleaseMs malloc create w
    intro i th hth hm hin
    rw [hthreads] at hth
    rw [hholder]
    rcases getElem?_append_thread hth with hold | hmem
    · exact hw i th hold hm hin
    · rw [(hnew th hmem).1] at hin
      exact absurd hin (by simp [Place.inside])
  | thread i e =>
    obtain ⟨th, th', holder, hth, hmove, rfl⟩ := threadfunc_move hstep
    exact hw.move hth hmove fun he => hl i th (by rw [he]) hth

/-- **A mutex excludes its threads as long as no lock of it fails**, in every run of calls of
`start_thread_obtaining_mutex` and of any number of threads, in any order, with any mutexes and any
other failures: a thread between its lock and its unlock of the mutex holds it, and no other thread
is between its own ones.

**Proof sketch.** `InsideHolds.step`, by induction on the run; two threads inside would both be the
holder. -/
theorem threading_exclusion {m : μ} {ls : List (Label μ)}
    (h : Run (guarded (LocksSucceed m) Step) .start ls w) (hth : w.threads[i]? = some th)
    (hm : th.data.mutex = m) (hin : th.place.inside = true) :
    w.holder m = some i ∧ ∀ j t, w.threads[j]? = some t → t.data.mutex = m →
      t.place.inside = true → j = i := by
  have hw : InsideHolds m w :=
    h.invariant (fun i th hth => absurd hth (by simp [Pool.start]))
      fun w l u hw hl => hw.step hl.1 hl.2
  have hi := hw i th hth hm hin
  refine ⟨hi, fun j t ht hm' hin' => ?_⟩
  have hj := hw j t ht hm' hin'
  rw [hi] at hj
  exact (Option.some.inj hj).symm

/-- Two threads of one mutex are started, and the first takes it. -/
def twoThreads : List (Label Unit) :=
  [.start () 0 0 true true, .start () 0 0 true true, .thread 0 (.usleep true),
    .thread 1 (.usleep true), .thread 0 (.lock true)]

/-- Then no other thread is inside. -/
theorem threading_exclusion_two :
    ∃ w, twoThreads.foldlM poolStep .start = some w ∧ w.holder () = some 0 ∧
      ∀ (j : ℕ) (t : Thread Unit), w.threads[j]? = some t → t.data.mutex = () →
        t.place.inside = true → j = 0 := by
  have hlabels : ∀ l ∈ twoThreads, ∀ i, l ≠ .thread i (.lock false) := by simp [twoThreads]
  refine ⟨_, rfl, ?_⟩
  have hrun : Run Step .start twoThreads _ := Run.of_foldlM (fun _ _ _ h => h)
    (rfl : twoThreads.foldlM poolStep .start = some _)
  exact threading_exclusion (m := ()) (i := 0) ((hrun.guard hlabels).mono fun _ _ _ h =>
    ⟨fun i th hl => absurd hl (h.1 i), h.2⟩) rfl rfl rfl

/-- A lock that fails breaks the exclusion: the second thread unlocks the mutex of the first one, and
the third one takes it. -/
example : (([.start () 0 0 true true, .start () 0 0 true true, .start () 0 0 true true,
    .thread 0 (.usleep true), .thread 1 (.usleep true), .thread 2 (.usleep true),
    .thread 0 (.lock true), .thread 1 (.lock false), .thread 1 (.usleep true),
    .thread 1 (.unlock true), .thread 2 (.lock true)].foldlM poolStep (.start : Pool Unit)).map
      fun w => w.threads.map fun th => th.place) =
    some [.waitToRelease, .complete, .waitToRelease] := by
  decide

/-! ## What holds whatever fails -/

/-- The holder of a mutex is between its lock and its unlock. -/
def HoldersInside (w : Pool μ) : Prop :=
  ∀ m i, w.holder m = some i →
    ∃ th, w.threads[i]? = some th ∧ th.data.mutex = m ∧ th.place.inside = true

/-- The step is one of this thread. -/
def Label.isStepOf (i : ℕ) : Label μ → Bool
  | .thread j _ => i = j
  | .start .. => false

/-- The label is a call of `start_thread_obtaining_mutex` whose `malloc` fails. -/
def Label.mallocFails : Label μ → Bool
  | .start _ _ _ malloc _ => !malloc
  | .thread .. => false

/-- The steps a thread has still to take, started or not. -/
def stepsLeft (w : Pool μ) (i : ℕ) : ℕ :=
  match w.threads[i]? with
  | none => 5
  | some th => th.place.left

/-- What holds after every run: the holders, the success of the threads, their steps, the blocks and
the values returned. -/
structure PoolInv (ls : List (Label μ)) (w : Pool μ) : Prop where
  holders : HoldersInside w
  success : ∀ (i : ℕ) (th : Thread μ), w.threads[i]? = some th →
    (th.data.threadCompleteSuccess = true ↔ th.place = .returned)
  steps : ∀ i, ls.countP (Label.isStepOf i) + stepsLeft w i = 5
  blocks : w.blocks = w.threads.length + w.returns.count false
  returns : w.returns.count true = w.threads.length + ls.countP Label.mallocFails

/-- **A step of a thread keeps the holders inside.** A thread that is not inside is no holder, so
that a thread goes on without holding a mutex or frees the one it holds. -/
lemma HoldersInside.move (hw : HoldersInside w) (hth : w.threads[i]? = some th)
    (hmove : Move w i th e th' holder) :
    HoldersInside { w with threads := w.threads.set i th', holder } := by
  -- a holder that does not move, or moves and stays inside
  have hkeep : ∀ m k, w.holder m = some k → (k = i → th'.place.inside = true) →
      ∃ t, (w.threads.set i th')[k]? = some t ∧ t.data.mutex = m ∧ t.place.inside = true := by
    intro m k hk hin
    obtain ⟨t, ht, hm, htin⟩ := hw m k hk
    rw [getElem?_set_thread hth]
    split_ifs with hki
    · subst hki
      obtain rfl := Option.some.inj (hth.symm.trans ht)
      exact ⟨th', rfl, hmove.mutex_eq.trans hm, hin rfl⟩
    · exact ⟨t, ht, hm, htin⟩
  -- a thread that is not inside holds nothing
  have hout : th.place.inside = false → ∀ m, w.holder m ≠ some i := by
    intro hplace m hm
    obtain ⟨t, ht, -, htin⟩ := hw m i hm
    obtain rfl := Option.some.inj (hth.symm.trans ht)
    rw [hplace] at htin
    exact absurd htin (by simp)
  intro m k hk
  change holder m = some k at hk
  change ∃ t, (w.threads.set i th')[k]? = some t ∧ _
  cases hmove with
  | lock hp hfree =>
    rcases eq_or_ne m th.data.mutex with rfl | hne
    · rw [Function.update_self] at hk
      obtain rfl := Option.some.inj hk
      rw [getElem?_set_thread hth, if_pos rfl]
      exact ⟨_, rfl, rfl, rfl⟩
    · rw [Function.update_of_ne hne] at hk
      exact hkeep m k hk fun _ => rfl
  | unlock hp =>
    rcases eq_or_ne m th.data.mutex with rfl | hne
    · rw [Function.update_self] at hk
      exact absurd hk (by simp)
    · rw [Function.update_of_ne hne] at hk
      refine hkeep m k hk fun hki => absurd hne ?_
      obtain ⟨t, ht, hm, -⟩ := hw m k hk
      subst hki
      obtain rfl := Option.some.inj (hth.symm.trans ht)
      simp [hm]
  | unlockOther hp hother =>
    refine hkeep m k hk fun hki => ?_
    obtain ⟨t, ht, hm, -⟩ := hw m k hk
    subst hki
    obtain rfl := Option.some.inj (hth.symm.trans ht)
    rw [hm] at hother
    exact absurd hk hother
  | releaseWait => exact hkeep m k hk fun _ => rfl
  | lockFailed => exact hkeep m k hk fun _ => rfl
  | obtainWait hp | complete hp =>
    have hplace : th.place.inside = false := by rw [hp]; rfl
    exact hkeep m k hk fun hki => absurd (hki ▸ hk) (hout hplace m)

/-- A step of a thread. -/
lemma PoolInv.move {ls : List (Label μ)} (hw : PoolInv ls w) (hth : w.threads[i]? = some th)
    (hmove : Move w i th e th' holder) :
    PoolInv (ls ++ [.thread i e]) { w with threads := w.threads.set i th', holder } := by
  have hlen : (w.threads.set i th').length = w.threads.length := List.length_set
  refine ⟨hw.holders.move hth hmove, ?_, ?_, ?_, ?_⟩
  · intro j t ht
    change (w.threads.set i th')[j]? = some t at ht
    rw [getElem?_set_thread hth] at ht
    split_ifs at ht with hji
    · obtain rfl := Option.some.inj ht
      exact hmove.success_iff (hw.success i th hth)
    · exact hw.success j t ht
  · intro j
    have hj := hw.steps j
    rw [stepsLeft] at hj ⊢
    change _ + (match (w.threads.set i th')[j]? with | none => 5 | some th => th.place.left) = 5
    rw [getElem?_set_thread hth, List.countP_append, List.countP_singleton]
    rcases eq_or_ne j i with rfl | hji
    · rw [hth] at hj
      dsimp only at hj
      have hleft := hmove.left_eq
      simp only [Label.isStepOf, decide_true, if_true]
      omega
    · simp only [Label.isStepOf, hji, decide_false, Bool.false_eq_true, if_false]
      exact hj
  · change w.blocks = (w.threads.set i th').length + _
    rw [hlen]
    exact hw.blocks
  · change w.returns.count true = (w.threads.set i th').length + _
    rw [hlen, List.countP_append, List.countP_singleton]
    exact hw.returns

omit [DecidableEq μ] in
/-- Threads at their start have all their steps to take. -/
lemma stepsLeft_append {new : List (Thread μ)}
    (hthreads : u.threads = w.threads ++ new) (hnew : ∀ th ∈ new, th.place = .waitToObtain) (i : ℕ) :
    stepsLeft u i = stepsLeft w i := by
  rw [stepsLeft, stepsLeft, hthreads]
  cases hi : w.threads[i]? with
  | some th =>
    obtain ⟨hlt, -⟩ := List.getElem?_eq_some_iff.mp hi
    rw [List.getElem?_append_left hlt, hi]
  | none =>
    cases hi' : (w.threads ++ new)[i]? with
    | none => rfl
    | some th =>
      rcases getElem?_append_thread hi' with hold | hmem
      · rw [hi] at hold
        exact absurd hold (by simp)
      · simp only [hnew th hmem, Place.left]

/-- **One step.** -/
lemma PoolInv.step {ls : List (Label μ)} {l : Label μ} (hw : PoolInv ls w) (hstep : Step w l u) :
    PoolInv (ls ++ [l]) u := by
  cases l with
  | thread i e =>
    obtain ⟨th, th', holder, hth, hmove, rfl⟩ := threadfunc_move hstep
    exact hw.move hth hmove
  | start mutex waitToObtainMs waitToReleaseMs malloc create =>
    obtain rfl := Option.some.inj hstep
    obtain ⟨new, hthreads, hholder, hnew⟩ :=
      start_cases mutex waitToObtainMs waitToReleaseMs malloc create w
    refine ⟨?_, ?_, ?_, ?_, ?_⟩
    · intro m i hi
      rw [hholder] at hi
      obtain ⟨th, hth, hm, hin⟩ := hw.holders m i hi
      obtain ⟨hlt, -⟩ := List.getElem?_eq_some_iff.mp hth
      exact ⟨th, by rw [hthreads, List.getElem?_append_left hlt, hth], hm, hin⟩
    · intro i th hth
      rw [hthreads] at hth
      rcases getElem?_append_thread hth with hold | hmem
      · exact hw.success i th hold
      · simp [hnew th hmem]
    · intro i
      rw [stepsLeft_append hthreads fun th hmem => (hnew th hmem).1, List.countP_append,
        List.countP_singleton]
      exact hw.steps i
    all_goals
      have hblocks := hw.blocks
      have hreturns := hw.returns
      unfold startThreadObtainingMutex
      cases malloc <;> cases create <;> simp [Label.mallocFails] <;> omega

/-- A thread that has not returned and is not at its lock can go on. -/
lemma exists_step (hth : w.threads[i]? = some th) (hlock : th.place ≠ .lock)
    (hreturned : th.place ≠ .returned) : ∃ e u, e ≠ .lock false ∧ threadfunc w i e = some u := by
  cases hp : th.place with
  | waitToObtain | waitToRelease =>
    obtain ⟨u, hu⟩ : ∃ u, threadfunc w i (.usleep true) = some u := by
      simp [threadfunc, hth, hp]
    exact ⟨_, u, by simp, hu⟩
  | unlock =>
    obtain ⟨u, hu⟩ : ∃ u, threadfunc w i (.unlock true) = some u := by
      simp [threadfunc, hth, hp]
    exact ⟨_, u, by simp, hu⟩
  | complete =>
    obtain ⟨u, hu⟩ : ∃ u, threadfunc w i .complete = some u := by
      simp [threadfunc, hth, hp]
    exact ⟨_, u, by simp, hu⟩
  | lock => exact absurd hp hlock
  | returned => exact absurd hp hreturned

/-- **Not all threads wait for each other**: one waits for a mutex only while the holder can go on. -/
lemma HoldersInside.exists_step (hw : HoldersInside w) (hth : w.threads[i]? = some th)
    (hreturned : th.place ≠ .returned) :
    ∃ j e u, e ≠ .lock false ∧ threadfunc w j e = some u := by
  by_cases hlock : th.place = .lock
  · cases hm : w.holder th.data.mutex with
    | none =>
      obtain ⟨u, hu⟩ : ∃ u, threadfunc w i (.lock true) = some u := by
        simp [threadfunc, hth, hlock, hm]
      exact ⟨i, _, u, by simp, hu⟩
    | some j =>
      obtain ⟨t, ht, -, hin⟩ := hw _ j hm
      refine ⟨j, Threading.exists_step ht ?_ ?_⟩ <;>
      · intro hp
        rw [hp] at hin
        exact absurd hin (by simp [Place.inside])
  · exact ⟨i, Threading.exists_step hth hlock hreturned⟩

/-- **What holds whatever fails**, in every run of calls of `start_thread_obtaining_mutex` and of any
number of threads. A block is allocated for each thread and for each call that returned `false`,
which leaks it; a call returned `true` for each thread and for each failure of `malloc`. A thread
returns after five steps of its own, and has noted its success if and only if it has returned,
whether its lock succeeded or not. As long as a thread has not returned, some thread can go on without
a lock that fails: there is no deadlock.

**Proof sketch.** `PoolInv.step`, by induction on the run. A thread that waits for a mutex waits for
a holder that is inside, which can go on. -/
theorem threading_run {ls : List (Label μ)} (h : Run Step .start ls w) :
    w.blocks = w.threads.length + w.returns.count false ∧
      w.returns.count true = w.threads.length + ls.countP Label.mallocFails ∧
      (∀ (i : ℕ) (th : Thread μ), w.threads[i]? = some th →
        (ls.countP (Label.isStepOf i) = 5 ↔ th.place = .returned) ∧
          ls.countP (Label.isStepOf i) ≤ 5 ∧
          (th.data.threadCompleteSuccess = true ↔ th.place = .returned)) ∧
      ((∃ th ∈ w.threads, th.place ≠ .returned) →
        ∃ j e u, e ≠ .lock false ∧ threadfunc w j e = some u) := by
  have hw : PoolInv ls w := by
    refine h.invariant_labels (I := PoolInv) ⟨?_, ?_, ?_, rfl, rfl⟩
      fun ls w l u _ hw hstep => hw.step hstep
    · exact fun m i hi => absurd hi (by simp [Pool.start])
    · exact fun i th hth => absurd hth (by simp [Pool.start])
    · exact fun i => rfl
  refine ⟨hw.blocks, hw.returns, ?_, ?_⟩
  · intro i th hth
    have hsteps := hw.steps i
    rw [stepsLeft, hth] at hsteps
    dsimp only at hsteps
    have hleft : th.place.left = 0 ↔ th.place = .returned := by
      cases th.place <;> simp [Place.left]
    refine ⟨?_, by omega, hw.success i th hth⟩
    rw [← hleft]
    omega
  · rintro ⟨th, hmem, hreturned⟩
    obtain ⟨i, hth⟩ := List.mem_iff_getElem?.mp hmem
    exact hw.holders.exists_step hth hreturned

/-- Of five calls the first fails to allocate and the second to create a thread. The first thread runs
to its end, the second takes the mutex, and the third waits for it. -/
def fiveCalls : List (Label Unit) :=
  [.start () 0 0 false true, .start () 0 0 true false, .start () 0 0 true true,
    .start () 0 0 true true, .start () 0 0 true true, .thread 0 (.usleep true),
    .thread 0 (.lock true), .thread 1 (.usleep true), .thread 0 (.usleep true),
    .thread 0 (.unlock true), .thread 1 (.lock true), .thread 2 (.usleep true),
    .thread 0 .complete]

/-- Then four blocks are allocated for three threads, four calls have returned `true`, and a thread can
go on. -/
theorem threading_run_five :
    ∃ w, fiveCalls.foldlM poolStep .start = some w ∧
      w.threads.map (·.place) = [.returned, .waitToRelease, .lock] ∧ w.holder () = some 1 ∧
      w.blocks = w.threads.length + w.returns.count false ∧
      w.returns.count true = w.threads.length + fiveCalls.countP Label.mallocFails ∧
      ∃ j e u, e ≠ .lock false ∧ threadfunc w j e = some u := by
  have hfold : (fiveCalls.foldlM poolStep .start).map (fun w => (w.threads.map (·.place),
      w.holder ())) = some ([.returned, .waitToRelease, .lock], some 1) := by
    decide
  obtain ⟨w, hw, hseen⟩ := Option.map_eq_some_iff.mp hfold
  obtain ⟨hplaces, hholder⟩ := Prod.mk.inj hseen
  obtain ⟨hblocks, hreturns, -, hprogress⟩ := threading_run (Run.of_foldlM (fun _ _ _ h => h) hw)
  -- the third thread waits
  obtain ⟨th, hmem, hlock⟩ : ∃ th ∈ w.threads, th.place = .lock :=
    List.mem_map.mp (hplaces ▸ by simp)
  exact ⟨w, hw, hplaces, hholder, hblocks, hreturns, hprogress ⟨th, hmem, by simp [hlock]⟩⟩

end Threading

end Aesd
