import Aesd.Driver.CircularBuffer
import Aesd.Lib.Heap

set_option relaxedAutoImplicit false
set_option autoImplicit false

/-!
# The main thread and its session nodes

`main` of `server/aesdsocket.c`, built with `USE_AESD_CHAR_DEVICE` set, as far as it decides what
happens to the `sock_thread_data` nodes: it accepts connections, allocates a node for each, links
it into a list and starts a thread on it, walks the list for threads that have finished, and at
`DONE` frees what is left. Each system call and each step along the list is one step; its outcome
comes in with the step. The session threads run in between and set the flags of their nodes at
any time.

The list is the one of `sys/queue.h`: `head.slh_first`, and a link in each node. What C leaves
undefined ends a run: an access to a node that is not allocated, a `free` of what is not
allocated, and a use of the list before `SLIST_INIT`. The fields of a node that `main` does not
read again (the mutex and the two descriptors) are left out.

## Main definitions

* `Aesd.SockThreadData`, `Aesd.MainState` — a node, and the variables of `main`.
* `Aesd.mainStep` — one step of `main`.
* `Aesd.threadStep` — one step of a session thread, as far as its node is concerned.
* `Aesd.MainStep` — any step.

## Main results

* `Aesd.mainStep_threads` — how a step of `main` changes the running threads.
-/

namespace Aesd

/-- `struct sock_thread_data`: the thread, its flags, and the link to the next node. -/
structure SockThreadData where
  tid : ℕ
  threadComplete : Bool
  threadSuccess : Bool
  sleNext : Ptr

/-- What is undefined in C. -/
inductive Fault where
  /-- an access through a pointer to nothing allocated -/
  | badAccess
  /-- a `free` of a pointer to nothing allocated -/
  | badFree
  /-- a use of the list head before it is initialised -/
  | uninitialised
deriving DecidableEq

/-- The place of `main`: its next system call, or its place in one of the list loops. -/
inductive MainPc where
  | setup
  | bind
  | daemon
  | slistInit
  | whileTest
  | listen
  | accept
  | malloc
  | startThread
  | foreachInit
  | foreachTest
  | join
  | removeTest
  | removeWalk (curelm : Ptr)
  | freeNode
  | foreachNext
  | doneFree
  | emptyTest
  | mallocE
  | unwindTest (e : Ptr)
  | unwindJoin (e : ℕ)
  | removeHead (e : ℕ)
  | unwindFree (e : ℕ)
  | freeE (e : Ptr)
  | exited
  | fault (f : Fault)
deriving DecidableEq

/-- The state of the process: the place of `main`, the nodes, `head.slh_first` and whether
`SLIST_INIT` has set it, `local_sock_thread_data`, the threads that are running with their nodes,
and `caught_signal`. -/
structure MainState where
  pc : MainPc
  heap : Heap SockThreadData
  slhFirst : Ptr
  slistReady : Bool
  localData : Ptr
  threads : ℕ → Option ℕ
  caughtSignal : Bool

/-- The outcomes of `main`'s test for daemon mode. -/
inductive DaemonResult where
  | foreground
  | forkFailed
  | parent
  | child
deriving DecidableEq

/-- What a session thread does with its node. -/
inductive ThreadAct where
  | useNode
  | setSuccess
  | setComplete
  | finish
deriving DecidableEq

/-- The outcome of a step: of a system call of `main`, `next` where there is nothing to choose, a
signal, or a step of a session thread. -/
inductive MainEvent where
  | setup (ok : Bool)
  | bind (ok : Bool)
  | daemon (result : DaemonResult)
  | listen (ok : Bool)
  | accept (ok : Bool)
  | malloc (choice : Ptr)
  | pthreadCreate (tid : Option ℕ)
  | next
  | signal
  | thread (tid : ℕ) (act : ThreadAct)
deriving DecidableEq

namespace MainState

/-- Something undefined happens. -/
def fail (st : MainState) (f : Fault) : MainState := { st with pc := .fault f }

/-- `main` has returned, or something undefined has happened. -/
def ended (st : MainState) : Bool :=
  match st.pc with
  | .exited => true
  | .fault _ => true
  | _ => false

/-- Access the node at `p` and go on with its contents. -/
def access (st : MainState) (p : Ptr) (go : SockThreadData → MainState) : MainState :=
  match p.bind st.heap.cell with
  | none => st.fail .badAccess
  | some node => go node

/-- `free(p)`, and go on at `pc`. -/
def free (st : MainState) (p : Ptr) (pc : MainPc) : MainState :=
  match p with
  | none => { st with pc }
  | some a =>
    if (st.heap.cell a).isSome then { st with heap := st.heap.free (some a), pc }
    else st.fail .badFree

/-- Use the list head. -/
def withList (st : MainState) (go : MainState) : MainState :=
  if st.slistReady then go else st.fail .uninitialised

/-- `pthread_join` of the thread of the node at `p`, and go on at `pc`; `none` while the thread is
running. -/
def join (st : MainState) (p : Ptr) (pc : MainPc) : Option MainState :=
  match p.bind st.heap.cell with
  | none => some (st.fail .badAccess)
  | some node => if (st.threads node.tid).isNone then some { st with pc } else none

/-- Go on at `pc` if a system call succeeds, and at `DONE` otherwise. -/
def orDone (st : MainState) (ok : Bool) (pc : MainPc) : MainState :=
  { st with pc := if ok then pc else .doneFree }

/-- After `malloc` of a node, at `p` or `NULL`: go to `DONE`, or clear the node and insert it at
the head of the list. -/
def insertNode (st : MainState) (choice : Ptr) : MainState :=
  match st.heap.malloc choice ⟨0, false, false, st.slhFirst⟩ with
  | (none, _) => { st with localData := none, pc := .doneFree }
  | (some p, heap) =>
    st.withList { st with heap, slhFirst := some p, localData := some p, pc := .startThread }

/-- `start_socket_thread`, with the thread `pthread_create` makes; if it makes none the node is
freed. -/
def startThread (st : MainState) (tid : Option ℕ) : MainState :=
  st.access st.localData fun _ =>
    match tid, st.localData with
    | some tid, some p =>
      { st with
        heap := st.heap.modify p fun node =>
          { node with tid, threadComplete := false, threadSuccess := false }
        threads := Function.update st.threads tid (some p)
        pc := .foreachInit }
    | _, _ => st.free st.localData .doneFree

end MainState

/-! ## The steps of `main` -/

/-- One step of `main`; `none` if the outcome is not one of the step's, or the step blocks. -/
def mainStep (st : MainState) (e : MainEvent) : Option MainState :=
  match st.pc, e with
  | .setup, .setup ok => some { st with pc := if ok then .bind else .exited }
  | .bind, .bind ok => some (st.orDone ok .daemon)
  | .daemon, .daemon result =>
    some { st with
      pc := if result = .foreground ∨ result = .child then .slistInit else .exited }
  | .slistInit, .next =>
    some { st with slhFirst := none, slistReady := true, localData := none, pc := .whileTest }
  | .whileTest, .next => some { st with pc := if st.caughtSignal then .doneFree else .listen }
  | .listen, .listen ok => some (st.orDone ok .accept)
  | .accept, .accept ok => some (st.orDone ok .malloc)
  | .malloc, .malloc choice => some (st.insertNode choice)
  | .startThread, .pthreadCreate tid =>
    if tid.any fun tid => (st.threads tid).isSome then none else some (st.startThread tid)
  -- `SLIST_FOREACH` with its body
  | .foreachInit, .next =>
    some (st.withList { st with localData := st.slhFirst, pc := .foreachTest })
  | .foreachTest, .next =>
    if st.localData.isNone then some { st with pc := .whileTest }
    else some (st.access st.localData fun node =>
      { st with pc := if node.threadSuccess || node.threadComplete then .join else .foreachNext })
  | .join, .next => st.join st.localData .removeTest
  -- `SLIST_REMOVE`
  | .removeTest, .next =>
    some (st.withList (
      if st.slhFirst = st.localData then
        st.access st.slhFirst fun node => { st with slhFirst := node.sleNext, pc := .freeNode }
      else { st with pc := .removeWalk st.slhFirst }))
  | .removeWalk curelm, .next =>
    some (st.access curelm fun node =>
      if node.sleNext = st.localData then
        st.access node.sleNext fun removed =>
          { st with
            heap := st.heap.modify (curelm.getD 0) fun node =>
              { node with sleNext := removed.sleNext }
            pc := .freeNode }
      else { st with pc := .removeWalk node.sleNext })
  | .freeNode, .next => some (st.free st.localData .foreachNext)
  | .foreachNext, .next =>
    some (st.access st.localData fun node =>
      { st with localData := node.sleNext, pc := .foreachTest })
  -- `DONE`
  | .doneFree, .next => some (st.free st.localData .emptyTest)
  | .emptyTest, .next =>
    some (st.withList { st with pc := if st.slhFirst.isNone then .exited else .mallocE })
  | .mallocE, .malloc choice =>
    let call := st.heap.malloc choice ⟨0, false, false, none⟩
    some { st with heap := call.2, pc := .unwindTest call.1 }
  | .unwindTest e, .next =>
    some (st.withList
      (match st.slhFirst with
      | none => { st with pc := .freeE e }
      | some a => { st with pc := .unwindJoin a }))
  | .unwindJoin a, .next => st.join (some a) (.removeHead a)
  -- `SLIST_REMOVE_HEAD`
  | .removeHead a, .next =>
    some (st.withList (st.access st.slhFirst fun node =>
      { st with slhFirst := node.sleNext, pc := .unwindFree a }))
  | .unwindFree a, .next => some (st.free (some a) (.unwindTest none))
  | .freeE e, .next => some (st.free e .exited)
  | _, _ => none

/-! ## The other steps -/

/-- One step of a session thread that runs on the node at `p`. -/
def threadStep (st : MainState) (tid p : ℕ) : ThreadAct → MainState
  | .useNode => st.access (some p) fun _ => st
  | .setSuccess => st.access (some p) fun _ =>
    { st with heap := st.heap.modify p fun node => { node with threadSuccess := true } }
  | .setComplete => st.access (some p) fun _ =>
    { st with heap := st.heap.modify p fun node => { node with threadComplete := true } }
  | .finish => { st with threads := Function.update st.threads tid none }

/-- One step of `main`, of a session thread, or the arrival of a signal, while the process runs. -/
def processStep (st : MainState) (e : MainEvent) : Option MainState :=
  if st.ended then none
  else
    match e with
    | .signal => some { st with caughtSignal := true }
    | .thread tid act => (st.threads tid).map fun p => threadStep st tid p act
    | e => mainStep st e

/-- The step relation of the process. -/
def MainStep (st : MainState) (e : MainEvent) (st' : MainState) : Prop :=
  processStep st e = some st'

/-- The process at its start: nothing is allocated, no thread is running, and the variables of
`main` have whatever values the memory held. -/
def MainState.start (slhFirst localData : Ptr) : MainState where
  pc := .setup
  heap := .empty
  slhFirst := slhFirst
  slistReady := false
  localData := localData
  threads := fun _ => none
  caughtSignal := false

/-! ## The running threads -/

namespace MainState

variable {st st' : MainState}

/-- An access keeps the threads. -/
lemma threads_access {p : Ptr} {go : SockThreadData → MainState}
    (h : ∀ node, (go node).threads = st.threads) : (st.access p go).threads = st.threads := by
  unfold access
  split
  · rfl
  · exact h _

/-- A `free` keeps the threads. -/
lemma threads_free (p : Ptr) (pc : MainPc) : (st.free p pc).threads = st.threads := by
  unfold free
  split
  · rfl
  · split_ifs <;> rfl

/-- A use of the list keeps the threads. -/
lemma threads_withList {go : MainState} (h : go.threads = st.threads) :
    (st.withList go).threads = st.threads := by
  unfold withList
  split_ifs
  · exact h
  · rfl

/-- Joining a thread keeps the threads that are running. -/
lemma threads_join {p : Ptr} {pc : MainPc} (h : st.join p pc = some st') :
    st'.threads = st.threads := by
  unfold join at h
  split at h
  · obtain rfl := Option.some.inj h
    rfl
  · split_ifs at h
    obtain rfl := Option.some.inj h
    rfl

/-- A new node has no thread yet. -/
lemma threads_insertNode (choice : Ptr) : (st.insertNode choice).threads = st.threads := by
  unfold insertNode
  split
  · rfl
  · exact threads_withList rfl

end MainState

/-- **A step of `main`** changes the running threads only by starting one that was not running. -/
lemma mainStep_threads {st st' : MainState} {e : MainEvent} (hs : mainStep st e = some st') :
    st'.threads = st.threads ∨ ∃ tid p, e = .pthreadCreate (some tid) ∧ st.threads tid = none ∧
      st'.threads = Function.update st.threads tid (some p) := by
  unfold mainStep at hs
  split at hs
  case h_9 tid hpc =>
    split_ifs at hs with hfree
    obtain rfl := Option.some.inj hs
    unfold MainState.startThread
    cases tid with
    | none => exact .inl (MainState.threads_access fun _ => MainState.threads_free _ _)
    | some tid =>
      cases hlocal : st.localData with
      | none => exact .inl rfl
      | some p =>
        unfold MainState.access
        split
        · exact .inl rfl
        · exact .inr ⟨tid, p, rfl, by simpa using hfree, rfl⟩
  case h_11 =>
    split_ifs at hs <;> obtain rfl := Option.some.inj hs
    · exact .inl rfl
    · exact .inl (MainState.threads_access fun _ => rfl)
  case h_12 | h_21 => exact .inl (MainState.threads_join hs)
  case h_25 => exact absurd hs (by simp)
  all_goals
    obtain rfl := Option.some.inj hs
    refine .inl ?_
  case h_8 => exact MainState.threads_insertNode _
  case h_10 | h_18 => exact MainState.threads_withList rfl
  case h_13 =>
    refine MainState.threads_withList ?_
    split_ifs
    · exact MainState.threads_access fun _ => rfl
    · rfl
  case h_14 =>
    refine MainState.threads_access fun _ => ?_
    split_ifs
    · exact MainState.threads_access fun _ => rfl
    · rfl
  case h_15 | h_17 | h_23 | h_24 => exact MainState.threads_free _ _
  case h_16 => exact MainState.threads_access fun _ => rfl
  case h_20 =>
    refine MainState.threads_withList ?_
    split <;> rfl
  case h_22 => exact MainState.threads_withList (MainState.threads_access fun _ => rfl)
  all_goals rfl

/-- A thread that goes on keeps the threads. -/
lemma threadStep_threads (st : MainState) (tid p : ℕ) {act : ThreadAct} (hact : act ≠ .finish) :
    (threadStep st tid p act).threads = st.threads := by
  cases act with
  | finish => exact absurd rfl hact
  | useNode => exact MainState.threads_access fun _ => rfl
  | setSuccess => exact MainState.threads_access fun _ => rfl
  | setComplete => exact MainState.threads_access fun _ => rfl

end Aesd
