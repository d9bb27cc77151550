import Aesd.Lib.LinkedList
import Aesd.Server.MainLoop

set_option relaxedAutoImplicit false
set_option autoImplicit false

/-!
# The nodes in the list of `main`

The nodes in the list are exactly the live nodes, and only they have running threads, as long as
four things are avoided: a failing `bind`, a failing `pthread_create`, a node whose thread has set a
flag when the walk comes to it, and a successful `malloc` at `DONE`.

## Main definitions

* `Aesd.careful` — the steps that avoid the four.
* `Aesd.NodesOk`, `Aesd.MainOk` — the invariant, for the nodes that will never be freed.

## Main results

* `Aesd.MainOk.of_threadStep` — a step of a session thread.
* `Aesd.MainOk.of_careful` — a careful step of `main`.
-/

namespace Aesd

open LinkedList

/-- The step avoids the outcomes `main` does not cope with: `bind` and `pthread_create` succeed,
the node that the walk tests has no flag set, and the `malloc` at `DONE` returns `NULL`. -/
def careful (st : MainState) (e : MainEvent) : Bool :=
  match st.pc, e with
  | .bind, .bind ok => ok
  | .startThread, .pthreadCreate tid => tid.isSome
  | .foreachTest, .next =>
    (st.localData.bind st.heap.cell).all fun node => !(node.threadSuccess || node.threadComplete)
  | .mallocE, .malloc choice => (st.heap.malloc choice ⟨0, false, false, none⟩).1.isNone
  | _, _ => true

/-! ## The invariant -/

/-- The list from the pointer `p` consists of the nodes at these addresses. -/
abbrev Nodes (heap : Heap SockThreadData) (p : Ptr) (addrs : List ℕ) : Prop :=
  Linked SockThreadData.sleNext heap p addrs

/-- The live nodes are those in the list and those nobody will free, and a thread runs on a node in
the list, which records it. -/
structure NodesOk (heap : Heap SockThreadData) (threads : ℕ → Option ℕ) (addrs leak : List ℕ) :
    Prop where
  owns : heap.Owns (leak ++ addrs)
  threads : ∀ tid a, threads tid = some a → a ∈ addrs ∧ ∃ node, heap.cell a = some node ∧
    node.tid = tid

/-- The list is initialised and consists of these nodes. -/
def HasList (st : MainState) (addrs : List ℕ) : Prop :=
  st.slistReady = true ∧ Nodes st.heap st.slhFirst addrs

/-- No thread is running on the node. -/
def Idle (st : MainState) (a : ℕ) : Prop := ∀ tid, st.threads tid ≠ some a

/-- The places from the initialisation of the list to the return of `main`. -/
def MainPc.usesList : MainPc → Bool
  | .setup => false
  | .bind => false
  | .daemon => false
  | .slistInit => false
  | .exited => false
  | _ => true

/-- What holds at each place of `main` of its variables, while the nodes `addrs` are in the
list. -/
def Here (st : MainState) (addrs : List ℕ) : Prop :=
  match st.pc with
  | .setup => addrs = [] ∧ st.slistReady = false
  | .bind => addrs = [] ∧ st.slistReady = false
  | .daemon => addrs = []
  | .slistInit => addrs = []
  | .whileTest => st.localData = none
  | .listen => st.localData = none
  | .accept => st.localData = none
  | .malloc => st.localData = none
  | .startThread => ∃ a ∈ addrs, st.localData = some a ∧ Idle st a
  | .foreachInit => True
  | .foreachTest => ∃ todo, Nodes st.heap st.localData todo
  | .foreachNext => ∃ a todo, Nodes st.heap st.localData (a :: todo)
  | .doneFree => st.localData = none
  | .emptyTest => True
  | .mallocE => addrs ≠ []
  | .unwindTest e => addrs = [] → e = none
  | .unwindJoin a => ∃ rest, addrs = a :: rest
  | .removeHead a => (∃ rest, addrs = a :: rest) ∧ Idle st a
  | .unwindFree _ => True
  | .freeE e => addrs = [] ∧ e = none
  | .exited => addrs = []
  | _ => False

/-- The node that `main` has taken out of the list and is about to free. -/
def MainPc.removed : MainPc → List ℕ
  | .unwindFree a => [a]
  | _ => []

/-- The invariant of `main`, with the nodes that will never be freed. -/
def MainOk (leak : List ℕ) (st : MainState) : Prop :=
  ∃ addrs, NodesOk st.heap st.threads addrs (st.pc.removed ++ leak) ∧
    (st.pc.usesList → HasList st addrs) ∧ Here st addrs

variable {heap heap' : Heap SockThreadData} {threads : ℕ → Option ℕ} {addrs leak : List ℕ}
  {st st' : MainState} {e : MainEvent}

/-- An access to a live node. -/
lemma access_live {p : ℕ} {node : SockThreadData} (hp : st.heap.cell p = some node)
    (go : SockThreadData → MainState) : st.access (some p) go = go node := by
  simp [MainState.access, hp]

/-- Joining the thread of a live node. -/
lemma join_live {p : ℕ} {node : SockThreadData} (hp : st.heap.cell p = some node) (pc : MainPc) :
    st.join (some p) pc = if (st.threads node.tid).isNone then some { st with pc } else none := by
  simp [MainState.join, hp]

/-- Freeing a live node. -/
lemma free_live {p : ℕ} (hp : (st.heap.cell p).isSome) (pc : MainPc) :
    st.free (some p) pc = { st with heap := st.heap.free (some p), pc } := by
  rw [MainState.free, if_pos hp]

/-- A step while the list is initialised. -/
lemma withList_ready (h : st.slistReady = true) (go : MainState) : st.withList go = go := by
  rw [MainState.withList, if_pos h]

/-! ## The session threads -/

/-- A change of a node that keeps its thread and its link. -/
lemma NodesOk.modify (h : NodesOk heap threads addrs leak) (p : ℕ)
    {f : SockThreadData → SockThreadData} (hf : ∀ node, (f node).tid = node.tid) :
    NodesOk (heap.modify p f) threads addrs leak := by
  refine ⟨h.owns.modify p f, ?_⟩
  intro tid a ha
  obtain ⟨hmem, node, hnode, htid⟩ := h.threads tid a ha
  refine ⟨hmem, ?_⟩
  rcases eq_or_ne a p with rfl | hne
  · refine ⟨f node, ?_, (hf node).trans htid⟩
    rw [Heap.cell_modify_self, hnode, Option.map_some]
  · exact ⟨node, (Heap.cell_modify_of_ne f hne).trans hnode, htid⟩

/-- The invariant does not depend on the flags of the nodes, on the threads that finish or on the
signal. -/
lemma MainOk.congr (h : MainOk leak st) (hpc : st'.pc = st.pc)
    (hready : st'.slistReady = st.slistReady) (hfirst : st'.slhFirst = st.slhFirst)
    (hlocal : st'.localData = st.localData)
    (hnodes : ∀ addrs leak, NodesOk st.heap st.threads addrs leak →
      NodesOk st'.heap st'.threads addrs leak)
    (hlinks : ∀ p l, Nodes st.heap p l → Nodes st'.heap p l)
    (hthreads : ∀ tid a, st'.threads tid = some a → st.threads tid = some a) :
    MainOk leak st' := by
  obtain ⟨addrs, hn, hlist, hhere⟩ := h
  have hidle : ∀ a, Idle st a → Idle st' a := by
    intro a ha tid htid
    exact ha tid (hthreads tid a htid)
  refine ⟨addrs, ?_, ?_, ?_⟩
  · rw [hpc]
    exact hnodes _ _ hn
  · intro huses
    rw [hpc] at huses
    obtain ⟨h1, h2⟩ := hlist huses
    refine ⟨hready.trans h1, ?_⟩
    rw [hfirst]
    exact hlinks _ _ h2
  · unfold Here at hhere ⊢
    rw [hpc, hlocal, hready]
    generalize st.pc = pc at hhere ⊢
    cases pc with
    | startThread =>
      obtain ⟨a, ha, hlocal, hi⟩ := hhere
      exact ⟨a, ha, hlocal, hidle a hi⟩
    | foreachTest =>
      obtain ⟨todo, htodo⟩ := hhere
      exact ⟨todo, hlinks _ _ htodo⟩
    | foreachNext =>
      obtain ⟨a, todo, htodo⟩ := hhere
      exact ⟨a, todo, hlinks _ _ htodo⟩
    | removeHead a => exact ⟨hhere.1, hidle a hhere.2⟩
    | _ => exact hhere

/-- A change of the flags of a node. -/
lemma MainOk.modify (h : MainOk leak st) (p : ℕ) {f : SockThreadData → SockThreadData}
    (htid : ∀ node, (f node).tid = node.tid) (hnext : ∀ node, (f node).sleNext = node.sleNext) :
    MainOk leak { st with heap := st.heap.modify p f } :=
  h.congr rfl rfl rfl rfl (fun _ _ hn => hn.modify p htid) (fun _ _ hl => hl.modify p hnext)
    fun _ _ ht => ht

/-- A session thread whose node is live sets flags or finishes. -/
lemma MainOk.of_threadStep {tid p : ℕ} (h : MainOk leak st) (hp : st.threads tid = some p)
    (act : ThreadAct) : MainOk leak (threadStep st tid p act) := by
  have hlive : ∃ node, st.heap.cell p = some node := by
    obtain ⟨addrs, hn, -⟩ := h
    obtain ⟨-, node, hnode, -⟩ := hn.threads tid p hp
    exact ⟨node, hnode⟩
  obtain ⟨node, hnode⟩ := hlive
  cases act with
  | useNode =>
    rw [threadStep, access_live hnode]
    exact h
  | setSuccess =>
    rw [threadStep, access_live hnode]
    exact h.modify p (fun _ => rfl) fun _ => rfl
  | setComplete =>
    rw [threadStep, access_live hnode]
    exact h.modify p (fun _ => rfl) fun _ => rfl
  | finish =>
    have hsub : ∀ tid' a, Function.update st.threads tid none tid' = some a →
        st.threads tid' = some a := by
      intro tid' a ht
      rcases eq_or_ne tid' tid with rfl | hne
      · rw [Function.update_self] at ht
        exact absurd ht (by simp)
      · rwa [Function.update_of_ne hne] at ht
    refine h.congr rfl rfl rfl rfl (fun _ _ hn => ⟨hn.owns, ?_⟩) (fun _ _ hl => hl) hsub
    intro tid' a ht
    exact hn.threads tid' a (hsub tid' a ht)

/-! ## The steps of `main` -/

namespace NodesOk

/-- A node in the list is live. -/
lemma live {a : ℕ} (h : NodesOk heap threads addrs leak) (ha : a ∈ addrs) :
    ∃ node, heap.cell a = some node :=
  Option.isSome_iff_exists.mp ((h.owns.live a).mpr (List.mem_append_right _ ha))

/-- A new node in the list, on which no thread is running yet. -/
lemma put {p : ℕ} (h : NodesOk heap threads addrs leak) (node : SockThreadData)
    (hp : heap.cell p = none) :
    NodesOk (heap.put p node) threads (p :: addrs) leak ∧ ∀ tid, threads tid ≠ some p := by
  have hidle : ∀ tid, threads tid ≠ some p := by
    intro tid ht
    obtain ⟨-, node', hnode', -⟩ := h.threads tid p ht
    rw [hp] at hnode'
    exact absurd hnode' (by simp)
  refine ⟨⟨(h.owns.malloc node hp).perm List.perm_middle.symm, ?_⟩, hidle⟩
  intro tid a ht
  obtain ⟨hmem, hnode⟩ := h.threads tid a ht
  have hne : a ≠ p := by
    rintro rfl
    exact hidle tid ht
  rw [Heap.cell_put_of_ne node hne]
  exact ⟨List.mem_cons_of_mem _ hmem, hnode⟩

/-- A new thread on a node of the list. -/
lemma start {a tid : ℕ} (h : NodesOk heap threads addrs leak) (ha : a ∈ addrs)
    (hidle : ∀ tid, threads tid ≠ some a) {f : SockThreadData → SockThreadData}
    (hf : ∀ node, (f node).tid = tid) :
    NodesOk (heap.modify a f) (Function.update threads tid (some a)) addrs leak := by
  refine ⟨h.owns.modify a f, ?_⟩
  intro tid' a' ht
  rcases eq_or_ne tid' tid with rfl | hne
  · rw [Function.update_self] at ht
    obtain rfl := Option.some.inj ht
    obtain ⟨node, hnode⟩ := h.live ha
    refine ⟨ha, f node, ?_, hf node⟩
    rw [Heap.cell_modify_self, hnode, Option.map_some]
  · rw [Function.update_of_ne hne] at ht
    have hne' : a' ≠ a := by
      rintro rfl
      exact hidle tid' ht
    rw [Heap.cell_modify_of_ne f hne']
    exact h.threads tid' a' ht

/-- A node without a thread is taken out of the list. -/
lemma remove {a : ℕ} (h : NodesOk heap threads (a :: addrs) leak)
    (hidle : ∀ tid, threads tid ≠ some a) : NodesOk heap threads addrs (a :: leak) := by
  refine ⟨h.owns.perm List.perm_middle, ?_⟩
  intro tid a' ht
  obtain ⟨hmem, hnode⟩ := h.threads tid a' ht
  refine ⟨?_, hnode⟩
  rcases List.mem_cons.mp hmem with rfl | hmem
  · exact absurd ht (hidle tid)
  · exact hmem

/-- A node out of the list is freed. -/
lemma free {a : ℕ} (h : NodesOk heap threads addrs (a :: leak)) :
    (heap.cell a).isSome ∧ a ∉ addrs ∧ NodesOk (heap.free (some a)) threads addrs leak := by
  have hnot : a ∉ leak ++ addrs := (List.nodup_cons.mp h.owns.nodup).1
  rw [List.mem_append, not_or] at hnot
  refine ⟨(h.owns.live a).mpr List.mem_cons_self, hnot.2, (Heap.Owns.free h.owns).1, ?_⟩
  intro tid a' ht
  obtain ⟨hmem, hnode⟩ := h.threads tid a' ht
  have hne : a' ≠ a := by
    rintro rfl
    exact hnot.2 hmem
  rw [Heap.cell_free_of_ne hne]
  exact ⟨hmem, hnode⟩

end NodesOk

/-- `main` allocates a node and inserts it, or goes to `DONE`. -/
lemma MainOk.insertNode (hn : NodesOk st.heap st.threads addrs leak) (hl : HasList st addrs)
    (choice : Ptr) : MainOk leak (st.insertNode choice) := by
  rw [MainState.insertNode]
  split
  · exact ⟨addrs, hn, fun _ => hl, rfl⟩
  · next p heap' hmalloc =>
    obtain ⟨-, hdead, rfl⟩ := Heap.malloc_some hmalloc
    obtain ⟨hn', hidle⟩ := hn.put ⟨0, false, false, st.slhFirst⟩ hdead
    rw [withList_ready hl.1]
    exact ⟨p :: addrs, hn', fun _ => ⟨hl.1, hl.2.put hdead rfl⟩, p, List.mem_cons_self, rfl, hidle⟩

/-- `main` starts a thread on a node of the list. -/
lemma MainOk.startThread {a : ℕ} (hn : NodesOk st.heap st.threads addrs leak)
    (hl : HasList st addrs) (ha : a ∈ addrs) (hlocal : st.localData = some a) (hidle : Idle st a)
    (tid : ℕ) : MainOk leak (st.startThread (some tid)) := by
  obtain ⟨node, hnode⟩ := hn.live ha
  simp only [MainState.startThread, hlocal, access_live hnode]
  refine ⟨addrs, hn.start ha hidle fun _ => rfl, fun _ => ⟨hl.1, hl.2.modify a ?_⟩, trivial⟩
  exact fun _ => rfl

/-- `main` joins the thread of the first node of the list; then no thread is running on it. -/
lemma MainOk.unwindJoin {a : ℕ} {rest : List ℕ} (hn : NodesOk st.heap st.threads (a :: rest) leak)
    (hl : HasList st (a :: rest)) (hs : st.join (some a) (.removeHead a) = some st') :
    MainOk leak st' := by
  obtain ⟨node, hnode⟩ := hn.live List.mem_cons_self
  rw [join_live hnode] at hs
  split_ifs at hs with hjoined
  obtain rfl := Option.some.inj hs
  refine ⟨a :: rest, hn, fun _ => hl, ⟨rest, rfl⟩, ?_⟩
  -- a thread on the node would be the one that was joined
  intro tid ht
  obtain ⟨-, node', hnode', htid⟩ := hn.threads tid a ht
  obtain rfl := Option.some.inj (hnode.symm.trans hnode')
  rw [htid, show st.threads tid = some a from ht] at hjoined
  exact absurd hjoined (by simp)

/-- **A careful step of `main`** keeps the invariant.

**Proof sketch.** One case for each place of `main`. The nodes in the list stay the live ones: a
node enters the list when it is allocated, gets a thread while it is in it, and is freed after the
thread was joined and the node taken out. The walk only passes live nodes, because it frees
none. -/
lemma MainOk.of_careful (h : MainOk leak st) (hc : careful st e = true) (hs : mainStep st e = some st') :
    MainOk leak st' := by
  obtain ⟨pc, heap, slhFirst, ready, localData, threads, caught⟩ := st
  obtain ⟨addrs, hn, hlist, hhere⟩ := h
  cases pc with
  | setup =>
    cases e with
    | setup ok =>
      obtain rfl := Option.some.inj hs
      cases ok with
      | false => exact ⟨addrs, hn, fun h => absurd h Bool.false_ne_true, hhere.1⟩
      | true => exact ⟨addrs, hn, fun h => absurd h Bool.false_ne_true, hhere⟩
    | _ => simp [mainStep] at hs
  | bind =>
    cases e with
    | bind ok =>
      obtain rfl : ok = true := hc
      obtain rfl := Option.some.inj hs
      exact ⟨addrs, hn, fun h => absurd h Bool.false_ne_true, hhere.1⟩
    | _ => simp [mainStep] at hs
  | daemon =>
    cases e with
    | daemon result =>
      obtain rfl := Option.some.inj hs
      cases result with
      | foreground => exact ⟨addrs, hn, fun h => absurd h Bool.false_ne_true, hhere⟩
      | forkFailed => exact ⟨addrs, hn, fun h => absurd h Bool.false_ne_true, hhere⟩
      | parent => exact ⟨addrs, hn, fun h => absurd h Bool.false_ne_true, hhere⟩
      | child => exact ⟨addrs, hn, fun h => absurd h Bool.false_ne_true, hhere⟩
    | _ => simp [mainStep] at hs
  | slistInit =>
    cases e with
    | next =>
      obtain rfl := Option.some.inj hs
      obtain rfl : addrs = [] := hhere
      exact ⟨[], hn, fun _ => ⟨rfl, rfl⟩, rfl⟩
    | _ => simp [mainStep] at hs
  | whileTest =>
    cases e with
    | next =>
      obtain rfl := Option.some.inj hs
      cases caught with
      | false => exact ⟨addrs, hn, fun _ => hlist rfl, hhere⟩
      | true => exact ⟨addrs, hn, fun _ => hlist rfl, hhere⟩
    | _ => simp [mainStep] at hs
  | listen =>
    cases e with
    | listen ok =>
      obtain rfl := Option.some.inj hs
      cases ok with
      | false => exact ⟨addrs, hn, fun _ => hlist rfl, hhere⟩
      | true => exact ⟨addrs, hn, fun _ => hlist rfl, hhere⟩
    | _ => simp [mainStep] at hs
  | accept =>
    cases e with
    | accept ok =>
      obtain rfl := Option.some.inj hs
      cases ok with
      | false => exact ⟨addrs, hn, fun _ => hlist rfl, hhere⟩
      | true => exact ⟨addrs, hn, fun _ => hlist rfl, hhere⟩
    | _ => simp [mainStep] at hs
  | malloc =>
    cases e with
    | malloc choice =>
      obtain rfl := Option.some.inj hs
      exact MainOk.insertNode hn (hlist rfl) choice
    | _ => simp [mainStep] at hs
  | startThread =>
    cases e with
    | pthreadCreate tid =>
      obtain ⟨tid, rfl⟩ := Option.isSome_iff_exists.mp hc
      obtain ⟨a, ha, hlocal, hidle⟩ := hhere
      simp only [mainStep] at hs
      split_ifs at hs
      obtain rfl := Option.some.inj hs
      exact MainOk.startThread hn (hlist rfl) ha hlocal hidle tid
    | _ => simp [mainStep] at hs
  | foreachInit =>
    cases e with
    | next =>
      obtain ⟨hready, hl⟩ := hlist rfl
      simp only [mainStep, withList_ready hready] at hs
      obtain rfl := Option.some.inj hs
      exact ⟨addrs, hn, fun _ => ⟨hready, hl⟩, addrs, hl⟩
    | _ => simp [mainStep] at hs
  | foreachTest =>
    cases e with
    | next =>
      obtain ⟨todo, htodo⟩ := hhere
      cases todo with
      | nil =>
        obtain rfl : localData = none := htodo
        obtain rfl := Option.some.inj hs
        exact ⟨addrs, hn, fun _ => hlist rfl, rfl⟩
      | cons a todo =>
        have hwalk := htodo
        obtain ⟨hlocal, node, hnode, -⟩ := htodo
        obtain rfl : localData = some a := hlocal
        have hflags : (node.threadSuccess || node.threadComplete) = false := by
          simpa [careful, show heap.cell a = some node from hnode] using hc
        simp only [mainStep, access_live hnode, hflags] at hs
        obtain rfl := Option.some.inj hs
        exact ⟨addrs, hn, fun _ => hlist rfl, a, todo, hwalk⟩
    | _ => simp [mainStep] at hs
  | foreachNext =>
    cases e with
    | next =>
      obtain ⟨a, todo, hlocal, node, hnode, htodo⟩ := hhere
      obtain rfl : localData = some a := hlocal
      simp only [mainStep, access_live hnode] at hs
      obtain rfl := Option.some.inj hs
      exact ⟨addrs, hn, fun _ => hlist rfl, todo, htodo⟩
    | _ => simp [mainStep] at hs
  | doneFree =>
    cases e with
    | next =>
      obtain rfl : localData = none := hhere
      obtain rfl := Option.some.inj hs
      exact ⟨addrs, hn, fun _ => hlist rfl, trivial⟩
    | _ => simp [mainStep] at hs
  | emptyTest =>
    cases e with
    | next =>
      obtain ⟨hready, hl⟩ := hlist rfl
      simp only [mainStep, withList_ready hready] at hs
      obtain rfl := Option.some.inj hs
      cases addrs with
      | nil =>
        obtain rfl : slhFirst = none := hl
        exact ⟨[], hn, fun h => absurd h Bool.false_ne_true, rfl⟩
      | cons a rest =>
        obtain rfl : slhFirst = some a := hl.1
        exact ⟨a :: rest, hn, fun _ => ⟨hready, hl⟩, by simp [Here]⟩
    | _ => simp [mainStep] at hs
  | mallocE =>
    cases e with
    | malloc choice =>
      have hnull : (heap.malloc choice ⟨0, false, false, none⟩).1 = none :=
        Option.isNone_iff_eq_none.mp hc
      have hheap := Heap.malloc_none (Prod.ext hnull rfl)
      simp only [mainStep, hnull, hheap] at hs
      obtain rfl := Option.some.inj hs
      exact ⟨addrs, hn, fun _ => hlist rfl, fun _ => rfl⟩
    | _ => simp [mainStep] at hs
  | unwindTest e₀ =>
    cases e with
    | next =>
      obtain ⟨hready, hl⟩ := hlist rfl
      simp only [mainStep, withList_ready hready] at hs
      obtain rfl := Option.some.inj hs
      cases addrs with
      | nil =>
        obtain rfl : slhFirst = none := hl
        exact ⟨[], hn, fun _ => ⟨hready, rfl⟩, rfl, hhere rfl⟩
      | cons a rest =>
        obtain rfl : slhFirst = some a := hl.1
        exact ⟨a :: rest, hn, fun _ => ⟨hready, hl⟩, rest, rfl⟩
    | _ => simp [mainStep] at hs
  | unwindJoin a =>
    cases e with
    | next =>
      obtain ⟨rest, rfl⟩ := hhere
      exact MainOk.unwindJoin hn (hlist rfl) hs
    | _ => simp [mainStep] at hs
  | removeHead a =>
    cases e with
    | next =>
      obtain ⟨⟨rest, rfl⟩, hidle⟩ := hhere
      obtain ⟨hready, rfl, node, hnode, hl⟩ := hlist rfl
      simp only [mainStep, withList_ready hready, access_live hnode] at hs
      obtain rfl := Option.some.inj hs
      exact ⟨rest, hn.remove hidle, fun _ => ⟨hready, hl⟩, trivial⟩
    | _ => simp [mainStep] at hs
  | unwindFree a =>
    cases e with
    | next =>
      obtain ⟨hready, hl⟩ := hlist rfl
      obtain ⟨hlive, hmem, hn'⟩ := hn.free
      simp only [mainStep, free_live hlive] at hs
      obtain rfl := Option.some.inj hs
      exact ⟨addrs, hn', fun _ => ⟨hready, hl.free hmem⟩, fun _ => rfl⟩
    | _ => simp [mainStep] at hs
  | freeE e₀ =>
    cases e with
    | next =>
      obtain ⟨rfl, rfl⟩ := hhere
      obtain rfl := Option.some.inj hs
      exact ⟨[], hn, fun h => absurd h Bool.false_ne_true, rfl⟩
    | _ => simp [mainStep] at hs
  | exited => cases e <;> simp [mainStep] at hs
  | _ => exact hhere.elim

end Aesd
