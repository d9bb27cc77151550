import Aesd.Server.Process
import Aesd.Server.Progress

set_option relaxedAutoImplicit false
set_option autoImplicit false

/-!
# A server that can be stopped

After a signal `main` leaves its loop, joins the threads of the sessions in its list one by one, and
frees their nodes. As long as it has coped with everything so far, it never comes to a point from
which it cannot return any more, unless a session has stopped: the sessions it waits for can go on
to their ends.

## Main definitions

* `Aesd.Watched.Careful`, `Aesd.Watched.GoesWell` — the steps that `main` copes with, and those in
  which also the sessions succeed.
* `Aesd.Stopping` — `main` is about to leave its loop, or has left it.
* `Aesd.SessionStopped`, `Aesd.CanExit` — a session has stopped; the process can end.
* `Aesd.MainAt` — `main` at a place, with the nodes in its list.

## Main results

* `Aesd.Tracks.exists_session` — a session goes on, or has stopped.
* `Aesd.canExit_unwindJoin`, `Aesd.canExit_unwindTest` — `main` joins a thread, and all of them.
* `Aesd.process_can_exit` — the process can end.
-/

namespace Aesd

open Transition

variable {st : MainState} {addrs rest : List ℕ} {a : ℕ}

/-! ## The steps of `main` after its loop -/

/-- `main` is at this place, with these nodes in its list. -/
structure MainAt (pc : MainPc) (addrs : List ℕ) (st : MainState) : Prop where
  pc_eq : st.pc = pc
  nodes : NodesOk st.heap st.threads addrs pc.removed
  list : HasList st addrs
  here : Here st addrs

/-- Without nodes there are no threads. -/
lemma NodesOk.nil {heap : Heap SockThreadData} {threads : ℕ → Option ℕ}
    (h : NodesOk heap threads [] []) :
    (∀ tid, threads tid = none) ∧ ∀ a, heap.cell a = none := by
  constructor
  · intro tid
    by_contra hrunning
    obtain ⟨a, ha⟩ := Option.ne_none_iff_exists'.mp hrunning
    exact absurd (h.threads tid a ha).1 List.not_mem_nil
  · intro a
    by_contra hlive
    exact absurd ((h.owns.live a).mp (Option.isSome_iff_ne_none.mpr hlive)) List.not_mem_nil

namespace MainAt

/-- The list is empty: `free(e)` is left. -/
lemma unwindTest_nil {e : Ptr} (h : MainAt (.unwindTest e) [] st) :
    ∃ st', mainStep st .next = some st' ∧ MainAt (.freeE none) [] st' := by
  obtain ⟨hpc, hn, ⟨hready, hl⟩, hhere⟩ := h
  have hfirst : st.slhFirst = none := hl
  unfold Here at hhere
  rw [hpc] at hhere
  refine ⟨{ st with pc := .freeE none }, ?_, rfl, hn, ⟨hready, hl⟩, rfl, rfl⟩
  simp only [mainStep, hpc, withList_ready hready, hfirst, hhere rfl]

/-- The thread of the first node is joined next. -/
lemma unwindTest_cons {e : Ptr} (h : MainAt (.unwindTest e) (a :: rest) st) :
    ∃ st', mainStep st .next = some st' ∧ MainAt (.unwindJoin a) (a :: rest) st' := by
  obtain ⟨hpc, hn, ⟨hready, hl⟩, -⟩ := h
  refine ⟨{ st with pc := .unwindJoin a }, ?_, rfl, hn, ⟨hready, hl⟩, rest, rfl⟩
  simp only [mainStep, hpc, withList_ready hready, hl.1]

/-- The thread of the first node is joined, as soon as it has ended. -/
lemma unwindJoin (h : MainAt (.unwindJoin a) (a :: rest) st) :
    ∃ node, st.heap.cell a = some node ∧ (st.threads node.tid = none →
      ∃ st', mainStep st .next = some st' ∧ MainAt (.removeHead a) (a :: rest) st') := by
  obtain ⟨hpc, hn, hlist, -⟩ := h
  obtain ⟨node, hnode⟩ := hn.live List.mem_cons_self
  refine ⟨node, hnode, fun hidle => ?_⟩
  refine ⟨{ st with pc := .removeHead a }, ?_, rfl, hn, hlist, ⟨rest, rfl⟩, ?_⟩
  · simp only [mainStep, hpc]
    rw [join_live hnode, if_pos (Option.isNone_iff_eq_none.mpr hidle)]
  · -- a thread on the node would be the one that has ended
    intro tid ht
    obtain ⟨-, node', hnode', htid⟩ := hn.threads tid a ht
    obtain rfl := Option.some.inj (hnode.symm.trans hnode')
    rw [htid, show st.threads tid = some a from ht] at hidle
    exact absurd hidle (by simp)

/-- The first node is taken out of the list. -/
lemma removeHead (h : MainAt (.removeHead a) (a :: rest) st) :
    ∃ st', mainStep st .next = some st' ∧ MainAt (.unwindFree a) rest st' := by
  obtain ⟨hpc, hn, ⟨hready, hfirst, node, hnode, hl⟩, hhere⟩ := h
  unfold Here at hhere
  rw [hpc] at hhere
  refine ⟨{ st with slhFirst := node.sleNext, pc := .unwindFree a }, ?_, rfl,
    hn.remove hhere.2, ⟨hready, hl⟩, trivial⟩
  simp only [mainStep, hpc, withList_ready hready, hfirst, access_live hnode]

/-- It is freed. -/
lemma unwindFree (h : MainAt (.unwindFree a) addrs st) :
    ∃ st', mainStep st .next = some st' ∧ MainAt (.unwindTest none) addrs st' := by
  obtain ⟨hpc, hn, ⟨hready, hl⟩, -⟩ := h
  obtain ⟨hlive, hmem, hn'⟩ := hn.free
  refine ⟨{ st with heap := st.heap.free (some a), pc := .unwindTest none }, ?_, rfl, hn',
    ⟨hready, hl.free hmem⟩, fun _ => rfl⟩
  simp only [mainStep, hpc, free_live hlive]

/-- A thread of the list ends while `main` waits for it. -/
lemma finish (h : MainAt (.unwindJoin a) addrs st) (tid : ℕ) :
    MainAt (.unwindJoin a) addrs { st with threads := Function.update st.threads tid none } := by
  refine ⟨h.pc_eq, ⟨h.nodes.owns, ?_⟩, h.list, ?_⟩
  · intro tid' a' ht
    change Function.update st.threads tid none tid' = some a' at ht
    rcases eq_or_ne tid' tid with rfl | hne
    · rw [Function.update_self] at ht
      exact absurd ht (by simp)
    · rw [Function.update_of_ne hne] at ht
      exact h.nodes.threads tid' a' ht
  · have hhere := h.here
    unfold Here at hhere ⊢
    rw [h.pc_eq] at hhere
    simp only [h.pc_eq]
    exact hhere

end MainAt

/-! ## The process -/

/-- `main` copes with the outcome of its step. -/
def Watched.Careful (x : Watched) : AesdsocketEvent → Prop
  | .main e => careful x.proc.main e = true
  | .session _ _ => True

/-- In a step of a session everything that may fail succeeds, and `main` copes with its own. -/
def Watched.GoesWell (x : Watched) (l : AesdsocketEvent) : Prop := x.Succeeds l ∧ x.Careful l

/-- `main` has left its loop, or may leave it: a signal has been caught where the loop is tested, or
interrupts `accept`. -/
def Stopping (st : MainState) : Prop :=
  match st.pc with
  | .whileTest => st.caughtSignal = true
  | .accept | .doneFree | .emptyTest | .mallocE | .unwindTest _ | .unwindJoin _ | .removeHead _
  | .unwindFree _ | .freeE _ | .exited => True
  | _ => False

/-- The session of a running thread has stopped: it waits for the device for good after its seek
request has stuck, or is about to write a line that does not fit a block with what is pending, or one
that starts with a NUL while nothing is pending. -/
def SessionStopped (client : ℕ → List Byte) (x : Watched) : Prop :=
  ∃ tid k, x.serves tid = some k ∧ x.proc.main.threads tid ≠ none ∧
    Stopped (lineOf (client k)) x.proc.shared (x.proc.sess tid)

/-- `main` has returned, no thread is running and no node is left. -/
structure HasExited (st : MainState) : Prop where
  pc_eq : st.pc = .exited
  idle : ∀ tid, st.threads tid = none
  freed : ∀ a, st.heap.cell a = none

/-- The process can go on well so that `main` returns, or a session stops. -/
def CanExit (fsl : FixedSizeLlseek) (client : ℕ → List Byte) (x : Watched) : Prop :=
  ∃ ks y, Run (guarded Watched.GoesWell (WatchedStep fsl client)) x ks y ∧
    (HasExited y.proc.main ∨ SessionStopped client y)

/-- The process is a run of the server of its first `n` clients, whose sessions have this much work
left. -/
def Followed (fsl : FixedSizeLlseek) (client : ℕ → List Byte) (dev : Driver) (n : ℕ) (x : Watched)
    (work : ℕ) : Prop :=
  ∃ (ls : List (Fin n × Event)) (v : Server n),
    Run (guarded Succeeds (ServerStep fsl)) (Server.start dev fun i : Fin n => client i.val) ls v ∧
      Tracks client x ls v ∧ ∑ i, (v.sess i).serveWork = work

variable {fsl : FixedSizeLlseek} {client : ℕ → List Byte} {x y : Watched} {dev : Driver}
  {d : LogDevice} {n work : ℕ}

/-- The process can end if a step leads to a state from which it can. -/
lemma CanExit.of_step {l : AesdsocketEvent}
    (hstep : guarded Watched.GoesWell (WatchedStep fsl client) x l y) (hy : CanExit fsl client y) :
    CanExit fsl client x := by
  obtain ⟨ks, z, hrun, hz⟩ := hy
  exact ⟨[l] ++ ks, z, (Run.single hstep).append hrun, hz⟩

/-- A step of `main` by itself is one of the process while it runs. -/
lemma mainStep_of_mainStep {e : MainEvent} {st' : MainState} (hs : mainStep st e = some st') :
    MainStep st e st' := by
  have hended : st.ended = false := by
    cases hpc : st.pc <;> simp [mainStep, hpc] at hs <;> simp [MainState.ended, hpc]
  unfold MainStep processStep
  rw [if_neg (by simp [hended])]
  cases e with
  | signal | thread => cases hpc : st.pc <;> simp [mainStep, hpc] at hs
  | _ => exact hs

/-- `main` copes with going on, except in its walk over the list. -/
lemma careful_next (hwalk : st.pc ≠ .foreachTest) : careful st .next = true := by
  cases hpc : st.pc with
  | foreachTest => exact absurd hpc hwalk
  | _ => simp [careful, hpc]

namespace Followed

/-- **A step of `main`** after its loop can be taken in the process. -/
lemma exists_main (h : Followed fsl client dev n x work) {e : MainEvent} {main : MainState}
    (hallows : x.proc.allows e = true) (hcareful : careful x.proc.main e = true)
    (hs : MainStep x.proc.main e main)
    (haccept : e ≠ .accept true) (hcreate : ∀ tid, e ≠ .pthreadCreate (some tid)) :
    ∃ y, guarded Watched.GoesWell (WatchedStep fsl client) x (.main e) y ∧ y.proc.main = main ∧
      Followed fsl client dev n y work := by
  obtain ⟨ls, v, hrun, htracks, hwork⟩ := h
  refine ⟨_, ⟨⟨trivial, hcareful⟩, ?_⟩, rfl, ls, v, hrun,
    htracks.step_other hallows hs haccept hcreate, hwork⟩
  have hproc : processStep x.proc.main e = some main := hs
  simp only [WatchedStep, watchedStep, aesdsocketStep, hallows, if_true, hproc, Option.map_some]

/-- `main` goes on to its next place. -/
lemma exists_next (h : Followed fsl client dev n x work) {main : MainState}
    (hwalk : x.proc.main.pc ≠ .foreachTest) (hs : mainStep x.proc.main .next = some main) :
    ∃ y, guarded Watched.GoesWell (WatchedStep fsl client) x (.main .next) y ∧
      y.proc.main = main ∧ Followed fsl client dev n y work :=
  h.exists_main rfl (careful_next hwalk) (mainStep_of_mainStep hs) (by simp) (by simp)

/-- A session that can go on goes on, and there is less work left then. -/
lemma step_of_enabled (h : Followed fsl client dev n x work) (hdev : Shows dev d)
    (hlock : d.locked = false) (hended : x.proc.main.ended = false) {tid : ℕ}
    (htid : x.proc.main.threads tid ≠ none)
    (henabled : Enabled fsl tid x.proc.shared (x.proc.sess tid)) :
    ∃ l y work', guarded Watched.GoesWell (WatchedStep fsl client) x l y ∧
      y.proc.main = x.proc.main ∧ Followed fsl client dev n y work' ∧ work' < work := by
  obtain ⟨ls, v, hrun, htracks, rfl⟩ := h
  obtain ⟨e, he, hsome⟩ := henabled
  obtain ⟨⟨g, s⟩, hs⟩ := Option.isSome_iff_exists.mp hsome
  have hrunning : (x.proc.main.threads tid).isSome := Option.isSome_iff_ne_none.mpr htid
  obtain ⟨i, v', hstep, htracks'⟩ := htracks.step_session hrunning he hs
  obtain ⟨finished, rest, d', hserved⟩ := exists_served hdev hlock hrun
  have hrun' := hrun.snoc hstep
  obtain ⟨hsucceeds, g', s', hsession, rfl⟩ := hstep
  refine ⟨.session tid e, _, _, ⟨⟨he, trivial⟩, ?_⟩, (x.proc.onSession_frame tid e).1,
    ⟨_, _, hrun', htracks', rfl⟩, sum_serveWork_lt (hserved.serveWork_lt hsucceeds hsession)⟩
  simp only [WatchedStep, watchedStep, aesdsocketStep, hended, hrunning, hs, and_self, if_true,
    Option.map_some]

/-- **A session goes on, or has stopped**, as long as one that is running is not done: this one, or
the one that holds the mutex. -/
lemma exists_session (h : Followed fsl client dev n x work) (hdev : Shows dev d)
    (hlock : d.locked = false) (hended : x.proc.main.ended = false) {tid : ℕ}
    (htid : x.proc.main.threads tid ≠ none) (hnot : (x.proc.sess tid).pc ≠ .done) :
    SessionStopped client x ∨ ∃ l y work',
      guarded Watched.GoesWell (WatchedStep fsl client) x l y ∧ y.proc.main = x.proc.main ∧
        Followed fsl client dev n y work' ∧ work' < work := by
  obtain ⟨ls, v, hrun, htracks, hwork⟩ := id h
  obtain ⟨finished, rest, d', hserved⟩ := exists_served hdev hlock hrun
  cases hrest : rest with
  | nil =>
    -- the mutex is free, and the session has not taken it yet
    obtain ⟨k, hk⟩ := Option.ne_none_iff_exists'.mp (htracks.running tid htid)
    obtain ⟨-, i, rfl, hsame⟩ := htracks.served tid k hk
    have hmem : i ∉ lockOrder ls := by
      rw [hserved.order_eq, hrest, List.append_nil]
      exact fun hmem => hnot (hsame ▸ hserved.done i hmem)
    have hbefore : (x.proc.sess tid).pc.phase = .before := by
      have hinside := (hserved.waiting i hmem).2
      rw [hsame] at hinside
      cases hpc : (x.proc.sess tid).pc with
      | callRecv | recv | takeMutex => rfl
      | done => exact absurd hpc hnot
      | _ => simp [hpc, Pc.phase] at hinside
    have hfree := htracks.mutex_iff.mp (hserved.related hrest).mutex_eq
    exact .inr (h.step_of_enabled hdev hlock hended htid
      (enabled_of_before fsl tid hbefore hfree))
  | cons j rest' =>
    obtain ⟨hmutex, hserving⟩ := hserved.serving j (hrest ▸ List.mem_cons_self)
    have hdone := (hserving.mutex_eq (by simp [hmutex])).2
    obtain ⟨tid', hserves, htid', hsame⟩ := htracks.slot_of_serving hserving hdone
    rcases hserving.enabled fsl hserved.locked_eq hdone with ⟨e, he, hsome⟩ | hstopped
    · obtain ⟨⟨g, s⟩, hs⟩ := Option.isSome_iff_exists.mp hsome
      obtain ⟨g', hs', -⟩ :=
        sessionStep_rename (j := tid') htracks.dev_eq.symm htracks.mutex_iff.symm hs
      rw [hsame] at he hs'
      rw [htracks.dev_eq] at he
      exact .inr (h.step_of_enabled hdev hlock hended htid'
        ⟨e, he, Option.isSome_iff_exists.mpr ⟨_, hs'⟩⟩)
    · refine .inl ⟨tid', j, hserves, htid', ?_⟩
      rw [← hsame]
      exact hstopped.1.of_dev_eq htracks.dev_eq.symm

/-! ## The end of the process -/

/-- The list is empty, and `main` returns. -/
lemma canExit_freeE (h : Followed fsl client dev n x work) (hmain : MainAt (.freeE none) [] x.proc.main) :
    CanExit fsl client x := by
  have hs : mainStep x.proc.main .next = some { x.proc.main with pc := .exited } := by
    simp only [mainStep, hmain.pc_eq, MainState.free]
  obtain ⟨y, hstep, hy, -⟩ := h.exists_next (by simp [hmain.pc_eq]) hs
  obtain ⟨hidle, hfreed⟩ := NodesOk.nil hmain.nodes
  exact .of_step hstep ⟨[], y, .nil, .inl (hy ▸ ⟨rfl, hidle, hfreed⟩)⟩

/-- The thread of the first node has ended: `main` joins it and frees the node. -/
lemma canExit_joined (h : Followed fsl client dev n x work)
    (hmain : MainAt (.unwindJoin a) (a :: rest) x.proc.main) {node : SockThreadData}
    (hnode : x.proc.main.heap.cell a = some node) (hidle : x.proc.main.threads node.tid = none)
    (hrest : ∀ {y : Watched} {work : ℕ}, Followed fsl client dev n y work →
      MainAt (.unwindTest none) rest y.proc.main → CanExit fsl client y) :
    CanExit fsl client x := by
  obtain ⟨node', hnode', hjoin⟩ := hmain.unwindJoin
  obtain rfl := Option.some.inj (hnode.symm.trans hnode')
  obtain ⟨m₁, hs₁, hm₁⟩ := hjoin hidle
  obtain ⟨y₁, hstep₁, rfl, h₁⟩ := h.exists_next (by simp [hmain.pc_eq]) hs₁
  obtain ⟨m₂, hs₂, hm₂⟩ := hm₁.removeHead
  obtain ⟨y₂, hstep₂, rfl, h₂⟩ := h₁.exists_next (by simp [hm₁.pc_eq]) hs₂
  obtain ⟨m₃, hs₃, hm₃⟩ := hm₂.unwindFree
  obtain ⟨y₃, hstep₃, rfl, h₃⟩ := h₂.exists_next (by simp [hm₂.pc_eq]) hs₃
  exact .of_step hstep₁ (.of_step hstep₂ (.of_step hstep₃ (hrest h₃ hm₃)))

/-- **`main` joins a thread**: the sessions go on until the thread has ended, or one has stopped.

**Proof sketch.** Induction on the work left. If the session of the thread is not done, it goes on, or
the one that holds the mutex does. If it is done the thread ends. -/
lemma canExit_unwindJoin (h : Followed fsl client dev n x work) (hdev : Shows dev d)
    (hlock : d.locked = false) (hmain : MainAt (.unwindJoin a) (a :: rest) x.proc.main)
    (hrest : ∀ {y : Watched} {work : ℕ}, Followed fsl client dev n y work →
      MainAt (.unwindTest none) rest y.proc.main → CanExit fsl client y) :
    CanExit fsl client x := by
  induction work using Nat.strongRecOn generalizing x with
  | _ work ih =>
    obtain ⟨node, hnode, -⟩ := hmain.unwindJoin
    have hended : x.proc.main.ended = false := by simp [MainState.ended, hmain.pc_eq]
    by_cases hidle : x.proc.main.threads node.tid = none
    · exact h.canExit_joined hmain hnode hidle hrest
    · by_cases hdone : (x.proc.sess node.tid).pc = .done
      · have hallows : x.proc.allows (.thread node.tid .finish) = true := by
          simp [Aesdsocket.allows, hdone, Pc.isDone]
        obtain ⟨p, hp⟩ := Option.ne_none_iff_exists'.mp hidle
        have hs : MainStep x.proc.main (.thread node.tid .finish)
            { x.proc.main with
              threads := Function.update x.proc.main.threads node.tid none } := by
          simp [MainStep, processStep, hended, hp, threadStep]
        have hcareful : careful x.proc.main (.thread node.tid .finish) = true := by
          simp [careful, hmain.pc_eq]
        obtain ⟨y, hstep, hy, h'⟩ := h.exists_main hallows hcareful hs (by simp) (by simp)
        have hmain' : MainAt (.unwindJoin a) (a :: rest) y.proc.main := hy ▸ hmain.finish node.tid
        have hnode' : y.proc.main.heap.cell a = some node := by
          rw [hy]
          exact hnode
        have hidle' : y.proc.main.threads node.tid = none := by
          rw [hy]
          exact Function.update_self ..
        exact .of_step hstep (h'.canExit_joined hmain' hnode' hidle' hrest)
      · rcases h.exists_session hdev hlock hended hidle hdone with hstopped | ⟨l, y, work', hstep, hy,
          h', hlt⟩
        · exact ⟨[], x, .nil, .inr hstopped⟩
        · exact .of_step hstep (ih work' hlt h' (hy ▸ hmain))

/-- **`main` joins all threads.** -/
lemma canExit_unwindTest {e : Ptr} (h : Followed fsl client dev n x work) (hdev : Shows dev d)
    (hlock : d.locked = false) (hmain : MainAt (.unwindTest e) addrs x.proc.main) :
    CanExit fsl client x := by
  have hwalk : x.proc.main.pc ≠ .foreachTest := by simp [hmain.pc_eq]
  induction addrs generalizing x work e with
  | nil =>
    obtain ⟨main, hs, hm⟩ := hmain.unwindTest_nil
    obtain ⟨y, hstep, rfl, h'⟩ := h.exists_next hwalk hs
    exact .of_step hstep (h'.canExit_freeE hm)
  | cons a rest ih =>
    obtain ⟨main, hs, hm⟩ := hmain.unwindTest_cons
    obtain ⟨y, hstep, rfl, h'⟩ := h.exists_next hwalk hs
    refine .of_step hstep (h'.canExit_unwindJoin hdev hlock hm fun hz hmz => ih hz hmz ?_)
    simp [hmz.pc_eq]

/-- `main` allocates nothing more, and joins all threads. -/
lemma canExit_mallocE (h : Followed fsl client dev n x work) (hdev : Shows dev d)
    (hlock : d.locked = false) (hmain : MainAt .mallocE addrs x.proc.main) :
    CanExit fsl client x := by
  obtain ⟨hpc, hn, hlist, hhere⟩ := hmain
  have hs : mainStep x.proc.main (.malloc none) =
      some { x.proc.main with pc := .unwindTest none } := by
    simp [mainStep, hpc, Heap.malloc]
  have hcareful : careful x.proc.main (.malloc none) = true := by simp [careful, hpc, Heap.malloc]
  obtain ⟨y, hstep, hy, h'⟩ :=
    h.exists_main rfl hcareful (mainStep_of_mainStep hs) (by simp) (by simp)
  have hmain' : MainAt (.unwindTest none) addrs y.proc.main := hy ▸ ⟨rfl, hn, hlist, fun _ => rfl⟩
  exact .of_step hstep (h'.canExit_unwindTest hdev hlock hmain')

/-- `main` returns if its list is empty, and joins all threads otherwise. -/
lemma canExit_emptyTest (h : Followed fsl client dev n x work) (hdev : Shows dev d)
    (hlock : d.locked = false) (hmain : MainAt .emptyTest addrs x.proc.main) :
    CanExit fsl client x := by
  obtain ⟨hpc, hn, ⟨hready, hl⟩, -⟩ := hmain
  have hwalk : x.proc.main.pc ≠ .foreachTest := by simp [hpc]
  cases addrs with
  | nil =>
    have hfirst : x.proc.main.slhFirst = none := hl
    have hs : mainStep x.proc.main .next = some { x.proc.main with pc := .exited } := by
      simp [mainStep, hpc, withList_ready hready, hfirst]
    obtain ⟨y, hstep, hy, -⟩ := h.exists_next hwalk hs
    obtain ⟨hidle, hfreed⟩ := NodesOk.nil hn
    exact .of_step hstep ⟨[], y, .nil, .inl (hy ▸ ⟨rfl, hidle, hfreed⟩)⟩
  | cons a rest =>
    have hs : mainStep x.proc.main .next = some { x.proc.main with pc := .mallocE } := by
      simp [mainStep, hpc, withList_ready hready, hl.1]
    obtain ⟨y, hstep, hy, h'⟩ := h.exists_next hwalk hs
    have hmain' : MainAt .mallocE (a :: rest) y.proc.main :=
      hy ▸ ⟨rfl, hn, ⟨hready, hl⟩, List.cons_ne_nil a rest⟩
    exact .of_step hstep (h'.canExit_mallocE hdev hlock hmain')

/-- There is no node to free at `DONE`. -/
lemma canExit_doneFree (h : Followed fsl client dev n x work) (hdev : Shows dev d)
    (hlock : d.locked = false) (hmain : MainAt .doneFree addrs x.proc.main) :
    CanExit fsl client x := by
  obtain ⟨hpc, hn, hlist, hhere⟩ := hmain
  unfold Here at hhere
  rw [hpc] at hhere
  have hs : mainStep x.proc.main .next = some { x.proc.main with pc := .emptyTest } := by
    simp [mainStep, hpc, hhere, MainState.free]
  obtain ⟨y, hstep, hy, h'⟩ := h.exists_next (by simp [hpc]) hs
  have hmain' : MainAt .emptyTest addrs y.proc.main := hy ▸ ⟨rfl, hn, hlist, trivial⟩
  exact .of_step hstep (h'.canExit_emptyTest hdev hlock hmain')

end Followed

/-- While `main` copes with everything its nodes are in order. -/
lemma mainOk_of_careful {slhFirst localData : Ptr} {ks : List AesdsocketEvent}
    (hrun : Run (guarded Watched.GoesWell (WatchedStep fsl client))
      (.start dev slhFirst localData) ks x) : MainOk [] x.proc.main := by
  refine hrun.invariant (I := fun x => MainOk [] x.proc.main) (mainOk_start slhFirst localData) ?_
  rintro x l y hx ⟨⟨-, hcareful⟩, hstep⟩
  obtain ⟨u, hu, rfl⟩ := Option.map_eq_some_iff.mp hstep
  obtain ⟨e, main, rfl, -, hmain, rfl⟩ | ⟨tid, e, g, s, rfl, -, -, rfl⟩ := aesdsocketStep_cases hu
  · exact hx.step hcareful hmain
  · have hsame : (x.proc.onSession tid e).main = x.proc.main := (x.proc.onSession_frame tid e).1
    exact hsame ▸ hx

/-- **The process can end.** Take any run of the whole process from a device that is free, with any
clients and signals, in whose session steps everything that may fail succeeds, while `main` copes
with the outcomes of its own, to a state in which it has left its loop, or may leave it. Then the
process can go on in the same way until `main` has joined every thread, freed every node and returned,
or a session has stopped: one that waits for the device after its own seek request, or has a line
that is too long, or one that starts with a NUL while nothing is pending.

**Proof sketch.** The process is followed by the server of its sessions. `main` waits only for
sessions in its list, which go on until they are done. -/
theorem process_can_exit (fsl : FixedSizeLlseek) {dev : Driver} {d : LogDevice} (hdev : Shows dev d)
    (hlock : d.locked = false) {client : ℕ → List Byte} {slhFirst localData : Ptr}
    {ks : List AesdsocketEvent} {x : Watched}
    (hrun : Run (guarded Watched.GoesWell (WatchedStep fsl client))
      (.start dev slhFirst localData) ks x) (hstop : Stopping x.proc.main) :
    CanExit fsl client x := by
  obtain ⟨addrs, hn, hlist, hhere⟩ := mainOk_of_careful hrun
  obtain ⟨ls, v, hserver, htracks⟩ :=
    exists_tracks (hrun.mono fun _ _ _ h => ⟨h.1.1, h.2⟩) le_rfl
  have h : Followed fsl client dev x.proc.clients.acquired x (∑ i, (v.sess i).serveWork) :=
    ⟨ls, v, hserver, htracks, rfl⟩
  rw [List.append_nil] at hn
  have hat : ∀ pc, x.proc.main.pc = pc → pc.usesList = true → MainAt pc addrs x.proc.main := by
    rintro pc rfl huses
    exact ⟨rfl, hn, hlist huses, hhere⟩
  have hhere' := hhere
  unfold Here at hhere'
  cases hpc : x.proc.main.pc with
  | doneFree => exact h.canExit_doneFree hdev hlock (hat _ hpc rfl)
  | emptyTest => exact h.canExit_emptyTest hdev hlock (hat _ hpc rfl)
  | mallocE => exact h.canExit_mallocE hdev hlock (hat _ hpc rfl)
  | unwindTest e => exact h.canExit_unwindTest hdev hlock (hat _ hpc rfl)
  | unwindJoin a =>
    rw [hpc] at hhere'
    obtain ⟨rest, rfl⟩ := hhere'
    exact h.canExit_unwindJoin hdev hlock (hat _ hpc rfl) fun hy hm =>
      hy.canExit_unwindTest hdev hlock hm
  | removeHead a =>
    rw [hpc] at hhere'
    obtain ⟨⟨rest, rfl⟩, -⟩ := hhere'
    obtain ⟨m₁, hs₁, hm₁⟩ := (hat _ hpc rfl).removeHead
    obtain ⟨y₁, hstep₁, rfl, h₁⟩ := h.exists_next (by simp [hpc]) hs₁
    obtain ⟨m₂, hs₂, hm₂⟩ := hm₁.unwindFree
    obtain ⟨y₂, hstep₂, rfl, h₂⟩ := h₁.exists_next (by simp [hm₁.pc_eq]) hs₂
    exact .of_step hstep₁ (.of_step hstep₂ (h₂.canExit_unwindTest hdev hlock hm₂))
  | unwindFree a =>
    obtain ⟨main, hs, hm⟩ := (hat _ hpc rfl).unwindFree
    obtain ⟨y, hstep, rfl, h'⟩ := h.exists_next (by simp [hpc]) hs
    exact .of_step hstep (h'.canExit_unwindTest hdev hlock hm)
  | freeE e =>
    rw [hpc] at hhere'
    obtain ⟨rfl, rfl⟩ := hhere'
    exact h.canExit_freeE (hat _ hpc rfl)
  | exited =>
    rw [hpc] at hhere' hn
    obtain rfl : addrs = [] := hhere'
    obtain ⟨hidle, hfreed⟩ := NodesOk.nil hn
    exact ⟨[], x, .nil, .inl ⟨hpc, hidle, hfreed⟩⟩
  | accept =>
    rw [hpc] at hhere'
    have hcareful : careful x.proc.main (.accept false) = true := by simp [careful, hpc]
    have hs : mainStep x.proc.main (.accept false) = some { x.proc.main with pc := .doneFree } := by
      simp [mainStep, hpc, MainState.orDone]
    obtain ⟨y, hstep, hy, h'⟩ :=
      h.exists_main rfl hcareful (mainStep_of_mainStep hs) (by simp) (by simp)
    rw [hpc] at hn hlist
    have hmain' : MainAt .doneFree addrs y.proc.main := hy ▸ ⟨rfl, hn, hlist rfl, hhere'⟩
    exact .of_step hstep (h'.canExit_doneFree hdev hlock hmain')
  | whileTest =>
    rw [hpc] at hhere'
    have hcaught : x.proc.main.caughtSignal = true := by
      unfold Stopping at hstop
      rwa [hpc] at hstop
    have hs : mainStep x.proc.main .next = some { x.proc.main with pc := .doneFree } := by
      simp [mainStep, hpc, hcaught]
    obtain ⟨y, hstep, hy, h'⟩ := h.exists_next (by simp [hpc]) hs
    rw [hpc] at hn hlist
    have hmain' : MainAt .doneFree addrs y.proc.main := hy ▸ ⟨rfl, hn, hlist rfl, hhere'⟩
    exact .of_step hstep (h'.canExit_doneFree hdev hlock hmain')
  | _ =>
    unfold Stopping at hstop
    rw [hpc] at hstop
    exact hstop.elim

instance (x : Watched) : (l : AesdsocketEvent) → Decidable (x.Careful l)
  | .main e => inferInstanceAs (Decidable (careful x.proc.main e = true))
  | .session _ _ => .isTrue trivial

instance (x : Watched) (l : AesdsocketEvent) : Decidable (x.GoesWell l) :=
  inferInstanceAs (Decidable (_ ∧ _))

/-- `main` accepts one client and walks its list; a signal arrives before the session has done
anything. -/
def signalledEarly : List AesdsocketEvent :=
  List.map AesdsocketEvent.main (firstSession ++ List.replicate 4 .next ++ [.signal])

/-- The process can end, although the client has not been served yet. -/
theorem process_can_exit_one_client :
    ∃ x, Run (guarded Watched.GoesWell (WatchedStep fixedSizeLlseek fun _ => [10]))
        (.start (initialDriver 0) none none) signalledEarly x ∧
      x.proc.main.threads 1 ≠ none ∧ CanExit fixedSizeLlseek (fun _ => [10]) x := by
  have hfold : ((signalledEarly.foldlM (fun (x : Watched) l =>
      if x.GoesWell l then watchedStep fixedSizeLlseek (fun _ => [10]) x l else none)
        (.start (initialDriver 0) none none)).map fun x =>
          (x.proc.main.pc, x.proc.main.caughtSignal, (x.proc.main.threads 1).isSome)) =
      some (.whileTest, true, true) := by
    decide +kernel
  obtain ⟨x, hx, hseen⟩ := Option.map_eq_some_iff.mp hfold
  obtain ⟨hpc, hseen⟩ := Prod.mk.inj hseen
  obtain ⟨hsignal, hrunning⟩ := Prod.mk.inj hseen
  have hrun : Run (guarded Watched.GoesWell (WatchedStep fixedSizeLlseek fun _ => [10]))
      (.start (initialDriver 0) none none) signalledEarly x := by
    refine .of_foldlM (fun x l y h => ?_) hx
    split_ifs at h with hl
    exact ⟨hl, h⟩
  have hstop : Stopping x.proc.main := by
    unfold Stopping
    rw [hpc]
    exact hsignal
  have hdev : Initialised (initialDriver 0) := initialised_iff.mpr ⟨0, rfl⟩
  exact ⟨x, hrun, Option.isSome_iff_ne_none.mp hrunning,
    process_can_exit fixedSizeLlseek hdev.shows rfl hrun hstop⟩

end Aesd
