import Aesd.Lib.Run
import Aesd.Server.NodeInvariant

set_option relaxedAutoImplicit false
set_option autoImplicit false

/-!
# The lifecycle of the session nodes

A run of the process is clean if every access is to an allocated node, every `free` is of an
allocated node, the list is used only after its initialisation, and every node has been freed when
`main` returns. A run of careful steps is clean. Each step that is not careful spoils the run: a
failing `bind` reaches `DONE` with the list not initialised; after a failing `pthread_create` the
node is freed a second time there; a node with a flag set is freed in the walk, which then reads its
link; and the node that `malloc` gives at `DONE` is never freed.

## Main definitions

* `Aesd.Clean` — nothing undefined has happened, and after the return of `main` no node is left.
* `Aesd.Doomed` — the states from which a run cannot end clean.

## Main results

* `Aesd.MainOk.of_careless`, `Aesd.Doomed.step` — a step that is not careful, and what follows it.
* `Aesd.node_lifecycle` — a run that has ended is clean if and only if all its steps were careful.
-/

namespace Aesd

open Transition LinkedList

/-- Nothing undefined has happened: every access so far was to an allocated node, every `free` of
an allocated node, and the list was used after its initialisation; and if `main` has returned every
node has been freed. -/
def Clean (st : MainState) : Prop :=
  (∀ f, st.pc ≠ .fault f) ∧ (st.pc = .exited → ∀ p, st.heap.cell p = none)

variable {leak : List ℕ} {st st' : MainState} {e : MainEvent}

/-! ## Steps of the process -/

/-- The process makes a step of `main`, of a session thread, or receives a signal. -/
lemma processStep_cases (hs : MainStep st e st') :
    st.ended = false ∧ ((e = .signal ∧ st' = { st with caughtSignal := true }) ∨
      (∃ tid act p, e = .thread tid act ∧ st.threads tid = some p ∧
        st' = threadStep st tid p act) ∨
      mainStep st e = some st') := by
  unfold MainStep processStep at hs
  split_ifs at hs with hended
  refine ⟨by simpa using hended, ?_⟩
  cases e with
  | signal => exact .inl ⟨rfl, (Option.some.inj hs).symm⟩
  | thread tid act =>
    obtain ⟨p, hp, rfl⟩ := Option.map_eq_some_iff.mp hs
    exact .inr (.inl ⟨tid, act, p, rfl, hp, rfl⟩)
  | _ => exact .inr (.inr hs)

/-- **A careful step of the process** keeps the invariant. -/
lemma MainOk.step (h : MainOk leak st) (hc : careful st e = true) (hs : MainStep st e st') :
    MainOk leak st' := by
  obtain ⟨-, ⟨-, rfl⟩ | ⟨tid, act, p, -, hp, rfl⟩ | hs⟩ := processStep_cases hs
  · exact h.congr rfl rfl rfl rfl (fun _ _ hn => hn) (fun _ _ hl => hl) fun _ _ ht => ht
  · exact h.of_threadStep hp act
  · exact h.of_careful hc hs

/-! ## Doomed states -/

/-- The places of `main` where it removes and frees a node in the middle of its walk. -/
def MainPc.reaping : MainPc → Bool
  | .join => true
  | .removeTest => true
  | .removeWalk _ => true
  | .freeNode => true
  | _ => false

/-- Something undefined has happened or is about to happen, or a node is lost. -/
inductive Doomed (st : MainState) : Prop
  | fault {f : Fault} (h : st.pc = .fault f)
  | uninitialised (h : st.pc = .doneFree ∨ st.pc = .emptyTest) (hready : st.slistReady = false)
  | reaping {a : ℕ} (h : st.pc.reaping = true) (hlocal : st.localData = some a)
  | freed {a : ℕ} (h : st.pc = .foreachNext ∨ st.pc = .doneFree) (hlocal : st.localData = some a)
      (hdead : st.heap.cell a = none)
  | leaked {leak : List ℕ} (hleak : leak ≠ []) (h : MainOk leak st)

/-- An access that is undefined or leads to a doomed state. -/
lemma Doomed.access {p : Ptr} {go : SockThreadData → MainState}
    (h : ∀ node, p.bind st.heap.cell = some node → Doomed (go node)) : Doomed (st.access p go) := by
  unfold MainState.access
  split
  · exact .fault rfl
  · next node hnode => exact h node hnode

/-- A `free` that is undefined or leads to a doomed state. -/
lemma Doomed.free {p : Ptr} {pc : MainPc} (hnull : p = none → Doomed { st with pc })
    (h : ∀ a, p = some a → Doomed { st with heap := st.heap.free (some a), pc }) :
    Doomed (st.free p pc) := by
  unfold MainState.free
  split
  · exact hnull rfl
  · next a =>
    split_ifs
    · exact h a rfl
    · exact .fault rfl

/-- Freeing what is not allocated. -/
lemma free_dead {p : ℕ} (hp : st.heap.cell p = none) (pc : MainPc) :
    st.free (some p) pc = st.fail .badFree := by
  rw [MainState.free, if_neg (by simp [hp])]

/-- A use of the list that is undefined or leads to a doomed state. -/
lemma Doomed.withList {go : MainState} (h : st.slistReady = true → Doomed go) :
    Doomed (st.withList go) := by
  unfold MainState.withList
  split_ifs with hready
  · exact h hready
  · exact .fault rfl

/-- After a `free` nothing lives at the address. -/
lemma cell_free_self {heap : Heap SockThreadData} (a : ℕ) : (heap.free (some a)).cell a = none := by
  by_cases ha : (heap.cell a).isSome
  · simp [Heap.free_live ha]
  · rw [Option.not_isSome_iff_eq_none] at ha
    simp [Heap.free, ha]

/-- **A step that is not careful** dooms the run.

**Proof sketch.** One case for each of the four conditions. -/
lemma MainOk.of_careless (h : MainOk leak st) (hc : careful st e = false)
    (hs : mainStep st e = some st') : Doomed st' := by
  obtain ⟨pc, heap, slhFirst, ready, localData, threads, caught⟩ := st
  obtain ⟨addrs, hn, hlist, hhere⟩ := h
  cases pc with
  | bind =>
    cases e with
    | bind ok =>
      obtain rfl : ok = false := hc
      obtain rfl := Option.some.inj hs
      exact .uninitialised (.inl rfl) hhere.2
    | _ => exact absurd hc (by simp [careful])
  | startThread =>
    cases e with
    | pthreadCreate tid =>
      obtain rfl : tid = none := by simpa [careful] using hc
      obtain ⟨a, ha, hlocal, -⟩ := hhere
      obtain rfl : localData = some a := hlocal
      obtain rfl := Option.some.inj hs
      refine Doomed.access fun _ _ => Doomed.free (fun h => absurd h (by simp)) ?_
      intro b hb
      obtain rfl := Option.some.inj hb
      exact .freed (.inr rfl) rfl (cell_free_self a)
    | _ => exact absurd hc (by simp [careful])
  | foreachTest =>
    cases e with
    | next =>
      cases localData with
      | none => exact absurd hc (by simp [careful])
      | some a =>
        obtain rfl := Option.some.inj hs
        apply Doomed.access
        intro node hnode
        have hnode : heap.cell a = some node := hnode
        have hflags : (node.threadSuccess || node.threadComplete) = true := by
          rw [← Bool.not_eq_false']
          simpa only [careful, Option.bind_some, hnode, Option.all_some] using hc
        rw [hflags]
        exact .reaping rfl rfl
    | _ => exact absurd hc (by simp [careful])
  | mallocE =>
    cases e with
    | malloc choice =>
      obtain ⟨hready, hl⟩ := hlist rfl
      cases hmalloc : heap.malloc choice ⟨0, false, false, none⟩ with
      | mk p heap' =>
        have hsome : p ≠ none := by
          rintro rfl
          exact absurd hc (by simp [careful, hmalloc])
        obtain ⟨a, rfl⟩ := Option.ne_none_iff_exists'.mp hsome
        obtain ⟨-, hdead, rfl⟩ := Heap.malloc_some hmalloc
        obtain ⟨hn', hidle⟩ := hn.put ⟨0, false, false, none⟩ hdead
        simp only [mainStep, hmalloc] at hs
        obtain rfl := Option.some.inj hs
        refine .leaked (List.cons_ne_nil a leak) ⟨addrs, hn'.remove hidle, ?_, fun h => ?_⟩
        · exact fun _ => ⟨hready, hl.put_dead hdead _⟩
        · exact absurd h hhere
    | _ => exact absurd hc (by simp [careful])
  | _ => exact absurd hc (by simp [careful])

/-- A step of a session thread is undefined, or leaves the variables of `main` and what is not
allocated alone. -/
lemma threadStep_cases (st : MainState) (tid p : ℕ) (act : ThreadAct) :
    threadStep st tid p act = st.fail .badAccess ∨
      ((threadStep st tid p act).pc = st.pc ∧
        (threadStep st tid p act).slistReady = st.slistReady ∧
        (threadStep st tid p act).localData = st.localData ∧
        ∀ a, st.heap.cell a = none → (threadStep st tid p act).heap.cell a = none) := by
  have hmodify : ∀ (f : SockThreadData → SockThreadData) a, st.heap.cell a = none →
      (st.heap.modify p f).cell a = none := by
    intro f a ha
    rcases eq_or_ne a p with rfl | hne
    · rw [Heap.cell_modify_self, ha, Option.map_none]
    · rw [Heap.cell_modify_of_ne f hne, ha]
  cases hp : st.heap.cell p with
  | none =>
    cases act with
    | finish => exact .inr ⟨rfl, rfl, rfl, fun _ ha => ha⟩
    | _ => exact .inl (by simp [threadStep, MainState.access, hp])
  | some node =>
    refine .inr ?_
    cases act with
    | useNode => simp [threadStep, access_live hp]
    | setSuccess =>
      simp only [threadStep, access_live hp, true_and]
      exact hmodify _
    | setComplete =>
      simp only [threadStep, access_live hp, true_and]
      exact hmodify _
    | finish => exact ⟨rfl, rfl, rfl, fun _ ha => ha⟩

/-- A removal in the middle of the walk is undefined, goes on, or ends with the node freed. -/
lemma Doomed.of_reaping {a : ℕ} (h : st.pc.reaping = true) (hlocal : st.localData = some a)
    (hs : mainStep st e = some st') : Doomed st' := by
  obtain ⟨pc, heap, slhFirst, ready, localData, threads, caught⟩ := st
  obtain rfl : localData = some a := hlocal
  cases pc with
  | join =>
    cases e with
    | next =>
      simp only [mainStep, MainState.join] at hs
      split at hs
      · obtain rfl := Option.some.inj hs
        exact .fault rfl
      · split_ifs at hs
        obtain rfl := Option.some.inj hs
        exact .reaping rfl rfl
    | _ => simp [mainStep] at hs
  | removeTest =>
    cases e with
    | next =>
      obtain rfl := Option.some.inj hs
      apply Doomed.withList
      intro _
      split_ifs
      · exact Doomed.access fun _ _ => .reaping rfl rfl
      · exact .reaping rfl rfl
    | _ => simp [mainStep] at hs
  | removeWalk curelm =>
    cases e with
    | next =>
      obtain rfl := Option.some.inj hs
      apply Doomed.access
      intro node _
      split_ifs
      · exact Doomed.access fun _ _ => .reaping rfl rfl
      · exact .reaping rfl rfl
    | _ => simp [mainStep] at hs
  | freeNode =>
    cases e with
    | next =>
      obtain rfl := Option.some.inj hs
      refine Doomed.free (fun h => absurd h (by simp)) fun b hb => ?_
      obtain rfl := Option.some.inj hb
      exact .freed (.inl rfl) rfl (cell_free_self a)
    | _ => simp [mainStep] at hs
  | _ => exact absurd h Bool.false_ne_true

/-- A doomed state stays doomed in every step of `main`.

**Proof sketch.** The uninitialised list is tested, the freed node is used or freed again, and a
removal in the middle of the walk ends with a freed node that the walk then uses. A lost node stays
lost. -/
lemma Doomed.of_mainStep (h : Doomed st) (hs : mainStep st e = some st') : Doomed st' := by
  obtain ⟨pc, heap, slhFirst, ready, localData, threads, caught⟩ := st
  cases h with
  | fault h =>
    obtain rfl : pc = _ := h
    cases e <;> simp [mainStep] at hs
  | uninitialised h hready =>
    obtain rfl : ready = false := hready
    obtain rfl | rfl : pc = .doneFree ∨ pc = .emptyTest := h
    · cases e with
      | next =>
        obtain rfl := Option.some.inj hs
        refine Doomed.free (fun _ => ?_) fun a _ => ?_
        · exact .uninitialised (.inr rfl) rfl
        · exact .uninitialised (.inr rfl) rfl
      | _ => simp [mainStep] at hs
    · cases e with
      | next =>
        obtain rfl := Option.some.inj hs
        exact Doomed.withList fun h => absurd h Bool.false_ne_true
      | _ => simp [mainStep] at hs
  | reaping h hlocal => exact Doomed.of_reaping h hlocal hs
  | @freed a h hlocal hdead =>
    obtain rfl : localData = some a := hlocal
    obtain rfl | rfl : pc = .foreachNext ∨ pc = .doneFree := h
    · cases e with
      | next =>
        obtain rfl := Option.some.inj hs
        apply Doomed.access
        intro node hnode
        exact absurd (hdead.symm.trans hnode) (by simp)
      | _ => simp [mainStep] at hs
    · cases e with
      | next =>
        obtain rfl := Option.some.inj hs
        exact .fault (congrArg MainState.pc (free_dead hdead _))
      | _ => simp [mainStep] at hs
  | leaked hleak h =>
    cases hc : careful _ e with
    | false => exact h.of_careless hc hs
    | true => exact .leaked hleak (h.of_careful hc hs)

/-- **A doomed state stays doomed** in every step of the process. -/
lemma Doomed.step (h : Doomed st) (hs : MainStep st e st') : Doomed st' := by
  obtain ⟨-, ⟨-, rfl⟩ | ⟨tid, act, p, -, hp, rfl⟩ | hs⟩ := processStep_cases hs
  · cases h with
    | fault h => exact .fault h
    | uninitialised h hready => exact .uninitialised h hready
    | reaping h hlocal => exact .reaping h hlocal
    | freed h hlocal hdead => exact .freed h hlocal hdead
    | leaked hleak h =>
      refine .leaked hleak (h.congr rfl rfl rfl rfl ?_ ?_ ?_)
      · exact fun _ _ hn => hn
      · exact fun _ _ hl => hl
      · exact fun _ _ ht => ht
  · rcases threadStep_cases st tid p act with hfail | ⟨hpc, hready, hlocal, hdead⟩
    · rw [hfail]
      exact .fault rfl
    · cases h with
      | fault h => exact .fault (hpc.trans h)
      | uninitialised h hready' => exact .uninitialised (hpc ▸ h) (hready.trans hready')
      | reaping h hlocal' => exact .reaping (hpc ▸ h) (hlocal.trans hlocal')
      | freed h hlocal' hdead' => exact .freed (hpc ▸ h) (hlocal.trans hlocal') (hdead _ hdead')
      | leaked hleak h => exact .leaked hleak (h.of_threadStep hp act)
  · exact h.of_mainStep hs

/-! ## Whole runs -/

/-- The invariant without lost nodes says that nothing has gone wrong. -/
lemma MainOk.clean (h : MainOk [] st) : Clean st := by
  obtain ⟨addrs, hn, -, hhere⟩ := h
  refine ⟨fun f hpc => ?_, fun hpc p => ?_⟩
  · unfold Here at hhere
    rw [hpc] at hhere
    exact hhere
  · unfold Here at hhere
    rw [hpc] at hhere hn
    have hhere : addrs = [] := hhere
    rw [hhere] at hn
    have hlive := hn.owns.live p
    by_contra hp
    exact absurd (hlive.mp (Option.isSome_iff_ne_none.mpr hp)) List.not_mem_nil

/-- A doomed run does not end clean. -/
lemma Doomed.not_clean (h : Doomed st) (hended : st.ended = true) : ¬Clean st := by
  intro ⟨hfault, hexit⟩
  have hpc : st.pc = .exited := by
    unfold MainState.ended at hended
    split at hended
    · assumption
    · next f hpc => exact absurd hpc (hfault f)
    · exact absurd hended Bool.false_ne_true
  cases h with
  | fault h => exact hfault _ h
  | uninitialised h =>
    rw [hpc] at h
    rcases h with h | h <;> exact absurd h (by simp)
  | reaping h =>
    rw [hpc] at h
    exact absurd h Bool.false_ne_true
  | freed h =>
    rw [hpc] at h
    rcases h with h | h <;> exact absurd h (by simp)
  | @leaked leak hleak h =>
    obtain ⟨addrs, hn, -⟩ := h
    obtain ⟨a, rest, rfl⟩ := List.exists_cons_of_ne_nil hleak
    have hlive := (hn.owns.live a).mpr (by simp)
    rw [hexit hpc a] at hlive
    exact absurd hlive Bool.false_ne_true

/-- The invariant at the start. -/
lemma mainOk_start (slhFirst localData : Ptr) : MainOk [] (MainState.start slhFirst localData) := by
  refine ⟨[], ⟨Heap.Owns.empty, ?_⟩, fun h => absurd h Bool.false_ne_true, rfl, rfl⟩
  intro tid a h
  exact absurd h (by simp [MainState.start])

/-- **A run** is a run of careful steps that keeps the invariant, or its state is doomed. -/
lemma careful_or_doomed {slhFirst localData : Ptr} {es : List MainEvent}
    (hrun : Run MainStep (MainState.start slhFirst localData) es st) :
    (Run (guarded (fun st e => careful st e = true) MainStep)
        (MainState.start slhFirst localData) es st ∧ MainOk [] st) ∨ Doomed st := by
  refine hrun.invariant_labels (I := fun es st =>
    (Run (guarded (fun st e => careful st e = true) MainStep)
      (MainState.start slhFirst localData) es st ∧ MainOk [] st) ∨ Doomed st) ?_ ?_
  · exact .inl ⟨.nil, mainOk_start slhFirst localData⟩
  · intro es st e st' _ h hs
    rcases h with ⟨hcareful, hok⟩ | hdoomed
    · cases hc : careful st e with
      | true => exact .inl ⟨hcareful.snoc ⟨hc, hs⟩, hok.step hc hs⟩
      | false =>
        obtain ⟨-, ⟨rfl, -⟩ | ⟨tid, act, p, rfl, -⟩ | hs⟩ := processStep_cases hs
        · exact absurd hc (by unfold careful; cases st.pc <;> simp)
        · exact absurd hc (by unfold careful; cases st.pc <;> simp)
        · exact .inr (hok.of_careless hc hs)
    · exact .inr (hdoomed.step hs)

/-- **Lifecycle of the session nodes.** In a run of careful steps, whatever else fails and however
the threads set the flags of their nodes, nothing undefined happens and no node is left when `main`
returns. A run that has ended is clean if and only if all its steps were careful. -/
theorem node_lifecycle (slhFirst localData : Ptr) :
    (∀ es st, Run (guarded (fun st e => careful st e = true) MainStep)
        (MainState.start slhFirst localData) es st → Clean st) ∧
      ∀ es st, Run MainStep (MainState.start slhFirst localData) es st → st.ended = true →
        (Clean st ↔ Run (guarded (fun st e => careful st e = true) MainStep)
          (MainState.start slhFirst localData) es st) := by
  have hclean : ∀ es st, Run (guarded (fun st e => careful st e = true) MainStep)
      (MainState.start slhFirst localData) es st → Clean st := by
    intro es st hrun
    refine MainOk.clean (hrun.invariant (mainOk_start slhFirst localData) ?_)
    intro st e st' hok ⟨hc, hs⟩
    exact hok.step hc hs
  refine ⟨hclean, fun es st hrun hended => ⟨fun h => ?_, hclean es st⟩⟩
  rcases careful_or_doomed hrun with ⟨hcareful, -⟩ | hdoomed
  · exact hcareful
  · exact absurd h (hdoomed.not_clean hended)

/-- The steps from the start of `main` to a running session thread `1` on the node `1`. -/
def firstSession : List MainEvent :=
  [.setup true, .bind true, .daemon .foreground, .next, .next, .listen true, .accept true,
    .malloc (some 1), .pthreadCreate (some 1)]

/-- One connection, whose thread finishes after the walk has passed its node; then a signal ends
the loop, and `malloc` fails at `DONE`. The node is freed and `main` returns. -/
theorem node_lifecycle_one_session :
    ∃ es st, Run (guarded (fun st e => careful st e = true) MainStep)
        (MainState.start none none) es st ∧
      es.take 9 = firstSession ∧ st.pc = .exited ∧ ∀ p, st.heap.cell p = none := by
  set es : List MainEvent := firstSession ++
    [.next, .next, .next, .next, .thread 1 .setSuccess, .thread 1 .setComplete, .thread 1 .finish,
      .signal, .next, .next, .next, .malloc none, .next, .next, .next, .next, .next, .next] with hes
  have hsome : ((es.foldlM (fun st e => if careful st e then processStep st e else none)
      (MainState.start none none)).map (·.pc)) = some .exited := rfl
  obtain ⟨st, hfold, hpc⟩ := Option.map_eq_some_iff.mp hsome
  have hrun : Run (guarded (fun st e => careful st e = true) MainStep)
      (MainState.start none none) es st := by
    refine Run.of_foldlM ?_ hfold
    intro st e st' h
    split_ifs at h with hc
    exact ⟨hc, h⟩
  exact ⟨es, st, hrun, rfl, hpc, ((node_lifecycle none none).1 es st hrun).2 hpc⟩

/-- One connection, whose thread finishes before the walk: the walk frees its node and then reads
the link of the node. -/
theorem node_lifecycle_fails :
    ¬∀ (slhFirst localData : Ptr) (es : List MainEvent) (st : MainState),
      Run MainStep (MainState.start slhFirst localData) es st → Clean st := by
  intro h
  set es : List MainEvent := firstSession ++
    [.thread 1 .setComplete, .thread 1 .finish, .next, .next, .next, .next, .next, .next] with hes
  have hsome : ((es.foldlM processStep (MainState.start none none)).map (·.pc)) =
      some (.fault .badAccess) := rfl
  obtain ⟨st, hfold, hpc⟩ := Option.map_eq_some_iff.mp hsome
  have hrun : Run MainStep (MainState.start none none) es st := Run.of_foldlM (fun _ _ _ h => h) hfold
  exact (h none none es st hrun).1 _ hpc

end Aesd
