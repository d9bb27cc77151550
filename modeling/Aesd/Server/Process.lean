import Aesd.Server.Contract
import Aesd.Server.Descriptors

set_option relaxedAutoImplicit false
set_option autoImplicit false

/-!
# The process and its sessions

In the process `main` starts the sessions one by one while others run, thread identifiers are used
again, and a session lives in the slot of its thread. The contract of the server is about sessions
that are all there from the start. This module shows that it makes no difference: each run of the
process is, session by session, a run of such a server, in which a session that `main` has not
started yet makes no step. So the process keeps the contract, whatever `main` does in between, and
when `main` returns no session is left in the middle.

## Main definitions

* `Aesd.Watched`, `Aesd.watchedStep` — the process with what its clients receive.
* `Aesd.Tracks` — the process and the server of all its sessions.

## Main results

* `Aesd.Tracks.main`, `Aesd.Tracks.session` — one step of the process.
* `Aesd.exists_tracks` — a run of the process is a run of its sessions.
* `Aesd.process_contract` — the contract of the process.
-/

namespace Aesd

open Transition

variable {fsl : FixedSizeLlseek} {st st' : MainState} {e : MainEvent}

/-! ## What is seen of the process -/

/-- The process and what an observer of it notes: the client that the session of a thread serves,
the bytes that the session of a client has sent, and the clients in the order in which their
sessions took the mutex. Clients are numbered as they are accepted. -/
structure Watched where
  proc : Aesdsocket
  serves : ℕ → Option ℕ
  received : ℕ → List Byte
  order : List ℕ

namespace Watched

/-- The process at its start. -/
def start (dev : Driver) (slhFirst localData : Ptr) : Watched where
  proc := .start dev slhFirst localData
  serves _ := none
  received _ := []
  order := []

/-- What is noted of a step to `u`: a new thread serves the client in `spkr_fd`. -/
def note (x : Watched) (u : Aesdsocket) : AesdsocketEvent → Watched
  | .main e =>
    { x with
      proc := u
      serves := match e with
        | .pthreadCreate (some tid) => Function.update x.serves tid x.proc.spkrFd
        | _ => x.serves }
  | .session tid e =>
    { x with
      proc := u
      received := match x.serves tid with
        | none => x.received
        | some k => Function.update x.received k (u.sess tid).sent
      order := x.order ++ if e.isLock then (x.serves tid).toList else [] }

/-- In a step of a session everything that may fail succeeds. -/
def Succeeds (x : Watched) : AesdsocketEvent → Prop
  | .main _ => True
  | .session tid e => e.Succeeds x.proc.shared.dev (x.proc.sess tid).pc

end Watched

/-- One step of the process, watched. -/
def watchedStep (fsl : FixedSizeLlseek) (client : ℕ → List Byte) (x : Watched)
    (l : AesdsocketEvent) : Option Watched :=
  (aesdsocketStep fsl client x.proc l).map fun u => x.note u l

/-- The step relation of the watched process. -/
def WatchedStep (fsl : FixedSizeLlseek) (client : ℕ → List Byte) (x : Watched)
    (l : AesdsocketEvent) (y : Watched) : Prop :=
  watchedStep fsl client x l = some y

/-! ## The threads of `main` -/

/-- **A step of the process** keeps the nodes in order, or the run is doomed. -/
lemma mainOk_or_doomed (h : MainOk [] st ∨ Doomed st) (hs : MainStep st e st') :
    MainOk [] st' ∨ Doomed st' := by
  rcases h with hok | hdoomed
  · cases hc : careful st e with
    | true => exact .inl (hok.step hc hs)
    | false =>
      obtain ⟨-, ⟨rfl, -⟩ | ⟨tid, act, p, rfl, -⟩ | hs⟩ := processStep_cases hs
      · exact absurd hc (by unfold careful; cases st.pc <;> simp)
      · exact absurd hc (by unfold careful; cases st.pc <;> simp)
      · exact .inr (hok.of_careless hc hs)
  · exact .inr (hdoomed.step hs)

/-- Where nothing has gone wrong yet the nodes are in order, but for some that are lost. -/
lemma exists_mainOk (h : MainOk [] st ∨ Doomed st) (hpc : st.pc = .startThread ∨ st.pc = .exited) :
    ∃ leak, MainOk leak st := by
  rcases h with hok | hdoomed
  · exact ⟨[], hok⟩
  · cases hdoomed with
    | fault h => rcases hpc with hpc | hpc <;> exact absurd (h.symm.trans hpc) (by simp)
    | uninitialised h =>
      rcases hpc with hpc | hpc <;> rcases h with h | h <;> exact absurd (h.symm.trans hpc) (by simp)
    | reaping h => rcases hpc with hpc | hpc <;> simp [hpc, MainPc.reaping] at h
    | freed h =>
      rcases hpc with hpc | hpc <;> rcases h with h | h <;> exact absurd (h.symm.trans hpc) (by simp)
    | leaked _ h => exact ⟨_, h⟩

/-- When `main` has returned no thread is running. -/
lemma threads_of_exited (h : MainOk [] st ∨ Doomed st) (hpc : st.pc = .exited) (tid : ℕ) :
    st.threads tid = none := by
  obtain ⟨leak, addrs, hn, -, hhere⟩ := exists_mainOk h (.inr hpc)
  unfold Here at hhere
  rw [hpc] at hhere
  have hhere : addrs = [] := hhere
  by_contra hrunning
  obtain ⟨a, ha⟩ := Option.ne_none_iff_exists'.mp hrunning
  have hmem := (hn.threads tid a ha).1
  rw [hhere] at hmem
  exact absurd hmem List.not_mem_nil

/-- A thread that `pthread_create` has made is running. -/
lemma threads_of_created (h : MainOk [] st ∨ Doomed st) {tid : ℕ}
    (hs : MainStep st (.pthreadCreate (some tid)) st') :
    st.pc = .startThread ∧ ∃ p, st'.threads = Function.update st.threads tid (some p) := by
  obtain ⟨-, ⟨he, -⟩ | ⟨_, _, _, he, -⟩ | hs⟩ := processStep_cases hs
  · exact absurd he (by simp)
  · exact absurd he (by simp)
  · have hpc : st.pc = .startThread := by
      cases hpc : st.pc <;> simp [mainStep, hpc] at hs
      rfl
    refine ⟨hpc, ?_⟩
    obtain ⟨leak, addrs, hn, -, hhere⟩ := exists_mainOk h (.inl hpc)
    unfold Here at hhere
    rw [hpc] at hhere
    obtain ⟨a, ha, hlocal, -⟩ := hhere
    obtain ⟨node, hnode⟩ := hn.live ha
    simp only [mainStep, hpc] at hs
    split_ifs at hs
    obtain rfl := Option.some.inj hs
    refine ⟨a, ?_⟩
    simp only [MainState.startThread, hlocal, access_live hnode]

/-- A thread that runs ran before, or has just been made. -/
lemma threads_of_mainStep (hs : MainStep st e st') {tid : ℕ} (h : st'.threads tid ≠ none) :
    st.threads tid ≠ none ∨ e = .pthreadCreate (some tid) := by
  obtain ⟨-, ⟨-, rfl⟩ | ⟨tid', act, p, rfl, -, rfl⟩ | hs⟩ := processStep_cases hs
  · exact .inl h
  · cases act with
    | finish =>
      rcases eq_or_ne tid tid' with rfl | hne
      · exact absurd (Function.update_self ..) h
      · have h : Function.update st.threads tid' none tid ≠ none := h
        rw [Function.update_of_ne hne] at h
        exact .inl h
    | _ =>
      rw [threadStep_threads st tid' p (by simp)] at h
      exact .inl h
  · rcases mainStep_threads hs with hsame | ⟨tid', p, rfl, -, hnew⟩
    · rw [hsame] at h
      exact .inl h
    · rcases eq_or_ne tid tid' with rfl | hne
      · exact .inr rfl
      · rw [hnew, Function.update_of_ne hne] at h
        exact .inl h

/-- `main` has accepted a client and not started its thread yet. -/
def MainPc.pending : MainPc → Bool
  | .malloc => true
  | .startThread => true
  | _ => false

/-- An access to a node does not come to such a place by itself. -/
lemma pending_access {p : Ptr} {go : SockThreadData → MainState}
    (h : ∀ node, (go node).pc.pending = false) : (st.access p go).pc.pending = false := by
  unfold MainState.access
  split
  · rfl
  · exact h _

/-- Nor does a `free`. -/
lemma pending_free (p : Ptr) {pc : MainPc} (h : pc.pending = false) :
    (st.free p pc).pc.pending = false := by
  unfold MainState.free
  split
  · exact h
  · split_ifs
    · exact h
    · rfl

/-- Nor does a use of the list. -/
lemma pending_withList {go : MainState} (h : go.pc.pending = false) :
    (st.withList go).pc.pending = false := by
  unfold MainState.withList
  split_ifs
  · exact h
  · rfl

/-- Nor does joining a thread. -/
lemma pending_join {p : Ptr} {pc : MainPc} (hpc : pc.pending = false) (h : st.join p pc = some st') :
    st'.pc.pending = false := by
  unfold MainState.join at h
  split at h
  · obtain rfl := Option.some.inj h
    rfl
  · split_ifs at h
    obtain rfl := Option.some.inj h
    exact hpc

/-- Nor does the start of a thread. -/
lemma pending_startThread (tid : Option ℕ) : (st.startThread tid).pc.pending = false := by
  refine pending_access fun _ => ?_
  split
  · rfl
  · exact pending_free _ rfl

/-- A step of `main` that comes to such a place accepts a client, or allocates its node. -/
lemma pending_of_mainStep (hs : mainStep st e = some st') (hpending : st'.pc.pending = true) :
    e = .accept true ∨ ∃ choice, e = .malloc choice ∧ st.pc = .malloc := by
  have hnot : st'.pc.pending ≠ false := by simp [hpending]
  unfold mainStep at hs
  split at hs
  case h_7 ok hpc =>
    cases ok with
    | true => exact .inl rfl
    | false =>
      obtain rfl := Option.some.inj hs
      exact absurd rfl hnot
  case h_8 choice hpc => exact .inr ⟨choice, rfl, hpc⟩
  case h_9 =>
    split_ifs at hs
    obtain rfl := Option.some.inj hs
    exact absurd (pending_startThread _) hnot
  case h_11 =>
    split_ifs at hs <;> obtain rfl := Option.some.inj hs
    · exact absurd rfl hnot
    · refine absurd (pending_access fun _ => ?_) hnot
      split_ifs <;> rfl
  case h_12 | h_21 => exact absurd (pending_join rfl hs) hnot
  case h_25 => exact absurd hs (by simp)
  all_goals
    obtain rfl := Option.some.inj hs
    refine absurd ?_ hnot
  case h_2 ok _ | h_6 ok _ => cases ok <;> rfl
  case h_10 => exact pending_withList rfl
  case h_13 =>
    refine pending_withList ?_
    split_ifs
    · exact pending_access fun _ => rfl
    · rfl
  case h_14 =>
    refine pending_access fun _ => ?_
    split_ifs
    · exact pending_access fun _ => rfl
    · rfl
  case h_15 | h_17 | h_23 | h_24 => exact pending_free _ rfl
  case h_16 => exact pending_access fun _ => rfl
  case h_18 =>
    refine pending_withList ?_
    split_ifs <;> rfl
  case h_20 =>
    refine pending_withList ?_
    split <;> rfl
  case h_22 => exact pending_withList (pending_access fun _ => rfl)
  all_goals first | rfl | (split_ifs <;> rfl)

/-- **A client is pending** only after `accept`, and until its thread is started. -/
lemma pending_of_step (hs : MainStep st e st') (hpending : st'.pc.pending = true) :
    e = .accept true ∨ (st.pc.pending = true ∧ ∀ tid, e ≠ .pthreadCreate tid) := by
  obtain ⟨-, ⟨rfl, rfl⟩ | ⟨tid, act, p, rfl, -, rfl⟩ | hs⟩ := processStep_cases hs
  · exact .inr ⟨hpending, by simp⟩
  · refine .inr ⟨?_, by simp⟩
    by_contra hnot
    rw [Bool.not_eq_true] at hnot
    have hfalse : (threadStep st tid p act).pc.pending = false := by
      cases act with
      | finish => exact hnot
      | useNode | setSuccess | setComplete => exact pending_access fun _ => hnot
    exact absurd (hpending.symm.trans hfalse) (by simp)
  · rcases pending_of_mainStep hs hpending with rfl | ⟨choice, rfl, hpc⟩
    · exact .inl rfl
    · exact .inr ⟨by rw [hpc]; rfl, by simp⟩

/-! ## The sessions of the process -/

/-- **A step of a session** does not depend on how the sessions are named. -/
lemma sessionStep_rename {ι κ : Type} {i : ι} {j : κ} {g g' : Shared ι} {h : Shared κ}
    {s s' : Session} {e : Event} (hdev : h.dev = g.dev) (hmutex : h.mutex = none ↔ g.mutex = none)
    (hstep : sessionStep fsl i g s e = some (g', s')) :
    ∃ h', sessionStep fsl j h s e = some (h', s') ∧ h'.dev = g'.dev ∧
      (h'.mutex = none ↔ g'.mutex = none) := by
  cases sessionStep_move hstep with
  | lock hpc hfree =>
    refine ⟨⟨h.dev, some j⟩, ?_, hdev, by simp⟩
    simp [sessionStep, hpc, hmutex.mpr hfree]
  | unlock hpc => exact ⟨⟨h.dev, none⟩, by simp [sessionStep, hpc], hdev, by simp⟩
  | @write line env p reply dev hpc hpos hwrite =>
    exact ⟨⟨dev, h.mutex⟩, by simp [sessionStep, hpc, hpos, hdev, hwrite], rfl, hmutex⟩
  | @ioctl seekto interrupted copied p reply dev hpc hpos hioctl =>
    exact ⟨⟨dev, h.mutex⟩, by simp [sessionStep, hpc, hpos, hdev, hioctl], rfl, hmutex⟩
  | recvFull hpc hgrow | recv hpc hgrow | readFull hpc hgrow =>
    exact ⟨h, by simp [sessionStep, hpc, hgrow], hdev, hmutex⟩
  | read hpc hgrow hread =>
    exact ⟨h, by simp [sessionStep, hpc, hgrow, hdev, hread], hdev, hmutex⟩
  | writeClosed hpc hpos | ioctlClosed hpc hpos =>
    exact ⟨h, by simp [sessionStep, hpc, hpos], hdev, hmutex⟩
  | seekWrite hpc | seekRead hpc => exact ⟨h, by simp [sessionStep, hpc, hdev], hdev, hmutex⟩
  | _ hpc => exact ⟨h, by simp [sessionStep, hpc], hdev, hmutex⟩

/-- The process, watched, and the server of its first `n` clients after the steps `ls'`. A session that
`main` has started is in the slot of its thread until the thread identifier is used again. -/
structure Tracks {n : ℕ} (client : ℕ → List Byte) (x : Watched) (ls : List (Fin n × Event))
    (v : Server n) : Prop where
  dev_eq : v.shared.dev = x.proc.shared.dev
  mutex_iff : v.shared.mutex = none ↔ x.proc.shared.mutex = none
  main : MainOk [] x.proc.main ∨ Doomed x.proc.main
  served : ∀ tid k, x.serves tid = some k → k < x.proc.clients.acquired ∧
    ∃ i : Fin n, i.val = k ∧ v.sess i = x.proc.sess tid
  inj : ∀ tid tid' k, x.serves tid = some k → x.serves tid' = some k → tid = tid'
  running : ∀ tid, x.proc.main.threads tid ≠ none → x.serves tid ≠ none
  ended : ∀ tid, x.serves tid ≠ none → x.proc.main.threads tid = none →
    (x.proc.sess tid).pc = .done
  unserved : ∀ i : Fin n, (∀ tid, x.serves tid ≠ some i.val) →
    v.sess i = .start (client i) ∨ (v.sess i).pc = .done
  pending : x.proc.main.pc.pending = true → ∃ i : Fin n, x.proc.spkrFd = some i.val ∧
    i.val < x.proc.clients.acquired ∧ v.sess i = .start (client i) ∧
      ∀ tid, x.serves tid ≠ some i.val
  later : ∀ i : Fin n, x.proc.clients.acquired ≤ i.val → v.sess i = .start (client i)
  received_eq : ∀ i : Fin n, x.received i = (v.sess i).sent
  order_eq : x.order = (lockOrder ls).map Fin.val

variable {n : ℕ} {client : ℕ → List Byte} {x y : Watched} {ls : List (Fin n × Event)} {v : Server n}

/-- At the start no client is there. -/
lemma tracks_start (dev : Driver) (slhFirst localData : Ptr) :
    Tracks client (.start dev slhFirst localData) []
      (Server.start dev fun i : Fin n => client i.val) where
  dev_eq := rfl
  mutex_iff := ⟨fun _ => rfl, fun _ => rfl⟩
  main := .inl (mainOk_start slhFirst localData)
  served tid k h := absurd h (by simp [Watched.start])
  inj tid tid' k h := absurd h (by simp [Watched.start])
  running tid h := absurd rfl h
  ended tid h := absurd rfl h
  unserved i _ := .inl rfl
  pending h := absurd h (by simp [Watched.start, Aesdsocket.start, MainState.start, MainPc.pending])
  later i _ := rfl
  received_eq i := rfl
  order_eq := rfl

namespace Tracks

/-- `main` accepts a client. -/
lemma step_accept (h : Tracks client x ls v) {main : MainState}
    (hs : MainStep x.proc.main (.accept true) main) (hn : x.proc.clients.acquired < n) :
    Tracks client (x.note ((x.proc.onMain client (.accept true)).moveMain main)
      (.main (.accept true))) ls v where
  dev_eq := h.dev_eq
  mutex_iff := h.mutex_iff
  main := mainOk_or_doomed h.main hs
  served tid k hk := by
    obtain ⟨hlt, hi⟩ := h.served tid k hk
    exact ⟨hlt.trans (Nat.lt_succ_self _), hi⟩
  inj := h.inj
  running tid htid := by
    rcases threads_of_mainStep hs htid with htid | he
    · exact h.running tid htid
    · exact absurd he (by simp)
  ended tid hserves hidle := by
    rcases mainStep_running hs hidle with hidle | he
    · exact h.ended tid hserves hidle
    · exact absurd he (by simp)
  unserved := h.unserved
  pending _ := by
    refine ⟨⟨x.proc.clients.acquired, hn⟩, rfl, Nat.lt_succ_self _, h.later _ le_rfl, ?_⟩
    intro tid hserves
    exact absurd (h.served tid _ hserves).1 (Nat.lt_irrefl _)
  later i hi := h.later i ((Nat.le_succ _).trans hi)
  received_eq := h.received_eq
  order_eq := h.order_eq

/-- `main` starts the thread of the client it has accepted last. -/
lemma step_create (h : Tracks client x ls v) {tid : ℕ} {main : MainState}
    (hs : MainStep x.proc.main (.pthreadCreate (some tid)) main) :
    Tracks client (x.note ((x.proc.onMain client (.pthreadCreate (some tid))).moveMain main)
      (.main (.pthreadCreate (some tid)))) ls v := by
  have hidle := threads_of_pthreadCreate hs
  obtain ⟨hpc, p, hthreads⟩ := threads_of_created h.main hs
  obtain ⟨i, hfd, hi, hstart, hnew⟩ := h.pending (by rw [hpc]; rfl)
  have hsess : (x.proc.onMain client (.pthreadCreate (some tid))).sess =
      Function.update x.proc.sess tid (.start (client i)) := by
    simp [Aesdsocket.onMain, Aesdsocket.startSocketThread, hfd]
  have hserves : Function.update x.serves tid x.proc.spkrFd =
      Function.update x.serves tid (some i.val) := by rw [hfd]
  refine ⟨h.dev_eq, h.mutex_iff, mainOk_or_doomed h.main hs, ?_, ?_, ?_, ?_, ?_, ?_, h.later,
    h.received_eq, h.order_eq⟩ <;> simp only [Watched.note, Aesdsocket.moveMain, hserves, hsess]
  · intro tid' k hk
    rcases eq_or_ne tid' tid with rfl | hne
    · rw [Function.update_self] at hk
      obtain rfl := Option.some.inj hk
      exact ⟨hi, i, rfl, by rw [Function.update_self, hstart]⟩
    · rw [Function.update_of_ne hne] at hk
      rw [Function.update_of_ne hne]
      exact h.served tid' k hk
  · intro tid₁ tid₂ k h₁ h₂
    rcases eq_or_ne tid₁ tid with h₁' | hne₁ <;> rcases eq_or_ne tid₂ tid with h₂' | hne₂
    · rw [h₁', h₂']
    · rw [h₁', Function.update_self] at h₁
      rw [Function.update_of_ne hne₂, ← h₁] at h₂
      exact absurd h₂ (hnew tid₂)
    · rw [h₂', Function.update_self] at h₂
      rw [Function.update_of_ne hne₁, ← h₂] at h₁
      exact absurd h₁ (hnew tid₁)
    · rw [Function.update_of_ne hne₁] at h₁
      rw [Function.update_of_ne hne₂] at h₂
      exact h.inj tid₁ tid₂ k h₁ h₂
  · intro tid' htid
    rcases eq_or_ne tid' tid with rfl | hne
    · simp
    · rw [hthreads, Function.update_of_ne hne] at htid
      rw [Function.update_of_ne hne]
      exact h.running tid' htid
  · intro tid' hserved hended
    rcases eq_or_ne tid' tid with rfl | hne
    · rw [hthreads, Function.update_self] at hended
      exact absurd hended (by simp)
    · rw [hthreads, Function.update_of_ne hne] at hended
      rw [Function.update_of_ne hne] at hserved ⊢
      exact h.ended tid' hserved hended
  · intro j hj
    by_cases hold : ∀ tid', x.serves tid' ≠ some j.val
    · exact h.unserved j hold
    · -- the session whose thread identifier is used again is done
      obtain ⟨tid', htid'⟩ := not_forall_not.mp hold
      obtain rfl : tid = tid' := by
        by_contra hne
        exact hj tid' (by rw [Function.update_of_ne (Ne.symm hne), htid'])
      obtain ⟨-, j', hj', hsame⟩ := h.served tid j htid'
      obtain rfl := Fin.ext hj'
      exact .inr (hsame ▸ h.ended tid (by simp [htid']) hidle)
  · intro hpending
    rcases pending_of_step hs hpending with he | ⟨-, he⟩
    · exact absurd he (by simp)
    · exact absurd rfl (he _)

/-- A step of `main` that neither accepts a client nor starts a thread. -/
lemma step_other (h : Tracks client x ls v) {e : MainEvent} {main : MainState}
    (hallows : x.proc.allows e = true) (hs : MainStep x.proc.main e main) (haccept : e ≠ .accept true)
    (hcreate : ∀ tid, e ≠ .pthreadCreate (some tid)) :
    Tracks client (x.note ((x.proc.onMain client e).moveMain main) (.main e)) ls v := by
  -- only `main` goes on, and the descriptors of its nodes
  have hframe : ∃ fds, x.note ((x.proc.onMain client e).moveMain main) (.main e) =
      { x with proc := { x.proc with main, clientFd := fds } } := by
    cases e with
    | accept ok =>
      cases ok with
      | true => exact absurd rfl haccept
      | false => exact ⟨_, rfl⟩
    | pthreadCreate tid =>
      cases tid with
      | none => exact ⟨_, rfl⟩
      | some tid => exact absurd rfl (hcreate tid)
    | _ => exact ⟨_, rfl⟩
  obtain ⟨fds, hframe⟩ := hframe
  rw [hframe]
  refine ⟨h.dev_eq, h.mutex_iff, mainOk_or_doomed h.main hs, h.served, h.inj, fun tid htid => ?_,
    fun tid hserved hidle => ?_, h.unserved, fun hpending => ?_, h.later, h.received_eq, h.order_eq⟩
  · rcases threads_of_mainStep hs htid with htid | he
    · exact h.running tid htid
    · exact absurd he (hcreate tid)
  · rcases mainStep_running hs hidle with hidle | rfl
    · exact h.ended tid hserved hidle
    · have hdone : (x.proc.sess tid).pc.isDone = true := hallows
      exact Pc.eq_done_of_isDone hdone
  · rcases pending_of_step hs hpending with he | ⟨hpending, -⟩
    · exact absurd he haccept
    · exact h.pending hpending

/-- **A step of `main`** is no step of a session. -/
lemma step_main (h : Tracks client x ls v) {e : MainEvent} {main : MainState}
    (hallows : x.proc.allows e = true) (hs : MainStep x.proc.main e main)
    (hn : ((x.proc.onMain client e).moveMain main).clients.acquired ≤ n) :
    Tracks client (x.note ((x.proc.onMain client e).moveMain main) (.main e)) ls v := by
  by_cases haccept : e = .accept true
  · subst haccept
    exact h.step_accept hs hn
  · by_cases hcreate : ∃ tid, e = .pthreadCreate (some tid)
    · obtain ⟨tid, rfl⟩ := hcreate
      exact h.step_create hs
    · exact h.step_other hallows hs haccept fun tid he => hcreate ⟨tid, he⟩

/-- **A step of a session** is one of its session in the server. -/
lemma step_session (h : Tracks client x ls v) {tid : ℕ} {e : Event} {g : Shared ℕ} {s : Session}
    (hrunning : (x.proc.main.threads tid).isSome)
    (he : e.Succeeds x.proc.shared.dev (x.proc.sess tid).pc)
    (hs : sessionStep fsl tid x.proc.shared (x.proc.sess tid) e = some (g, s)) :
    ∃ i v', guarded Succeeds (ServerStep fsl) v (i, e) v' ∧
      Tracks client (x.note ((x.proc.onSession tid e).moveSession tid g s) (.session tid e))
        (ls ++ [(i, e)]) v' := by
  have hserved := h.running tid (Option.isSome_iff_ne_none.mp hrunning)
  obtain ⟨k, hk⟩ := Option.ne_none_iff_exists'.mp hserved
  obtain ⟨hlt, i, rfl, hsame⟩ := h.served tid k hk
  rw [← hsame] at hs
  obtain ⟨g', hs', hdev, hmutex⟩ := sessionStep_rename (j := i) h.dev_eq h.mutex_iff hs
  obtain ⟨hmain, hsess, hclients⟩ := x.proc.onSession_frame tid e
  have hfd : (x.proc.onSession tid e).spkrFd = x.proc.spkrFd := by
    cases e with
    | openDevice ok => cases ok <;> rfl
    | _ => rfl
  have hother : ∀ j : Fin n, (∀ tid', x.serves tid' ≠ some j.val) → j ≠ i :=
    fun j hj heq => hj tid (heq ▸ hk)
  refine ⟨i, ⟨g', Function.update v.sess i s⟩, ⟨?_, g', s, hs', rfl⟩, ?_⟩
  · show e.Succeeds v.shared.dev (v.sess i).pc
    rw [h.dev_eq, hsame]
    exact he
  refine ⟨hdev, hmutex, ?_, ?_, h.inj, ?_, ?_, ?_, ?_, ?_, ?_, ?_⟩ <;>
    simp only [Watched.note, Aesdsocket.moveSession, hmain, hclients, hfd, hsess, hk]
  · exact h.main
  · intro tid' k' hk'
    obtain ⟨hlt', j, rfl, hj⟩ := h.served tid' k' hk'
    refine ⟨hlt', j, rfl, ?_⟩
    rcases eq_or_ne tid' tid with rfl | hne
    · obtain rfl := Fin.ext (Option.some.inj (hk.symm.trans hk'))
      rw [Function.update_self, Function.update_self]
    · have hij : j ≠ i := fun heq => hne (h.inj tid' tid j hk' (heq ▸ hk))
      rw [Function.update_of_ne hij, Function.update_of_ne hne]
      exact hj
  · exact h.running
  · intro tid' hserved' hidle
    rcases eq_or_ne tid' tid with rfl | hne
    · rw [hidle] at hrunning
      exact absurd hrunning (by simp)
    · rw [Function.update_of_ne hne]
      exact h.ended tid' hserved' hidle
  · intro j hj
    rw [Function.update_of_ne (hother j hj)]
    exact h.unserved j hj
  · intro hpending
    obtain ⟨j, hspkr, hjlt, hjstart, hj⟩ := h.pending hpending
    refine ⟨j, hspkr, hjlt, ?_, hj⟩
    rw [Function.update_of_ne (hother j hj)]
    exact hjstart
  · intro j hj
    have hij : j ≠ i := fun heq => absurd hlt (not_lt.mpr (heq ▸ hj))
    rw [Function.update_of_ne hij]
    exact h.later j hj
  · intro j
    rcases eq_or_ne j i with rfl | hij
    · rw [Function.update_self, Function.update_self, Function.update_self]
    · rw [Function.update_of_ne hij, Function.update_of_ne (fun heq => hij (Fin.ext heq))]
      exact h.received_eq j
  · rw [h.order_eq, lockOrder_append, List.map_append]
    cases e with
    | lock ok => cases ok <;> rfl
    | _ => rfl

end Tracks

/-- **A run of the process is a run of its sessions.** -/
lemma exists_tracks {dev : Driver} {slhFirst localData : Ptr} {ks : List AesdsocketEvent}
    (hrun : Run (guarded Watched.Succeeds (WatchedStep fsl client))
      (.start dev slhFirst localData) ks x) (hn : x.proc.clients.acquired ≤ n) :
    ∃ ls v, Run (guarded Succeeds (ServerStep fsl))
      (Server.start dev fun i : Fin n => client i.val) ls v ∧ Tracks client x ls v := by
  have hall : x.proc.clients.acquired ≤ n → ∃ ls v, Run (guarded Succeeds (ServerStep fsl))
      (Server.start dev fun i : Fin n => client i.val) ls v ∧ Tracks client x ls v := by
    refine hrun.invariant (I := fun x => x.proc.clients.acquired ≤ n → ∃ ls v,
      Run (guarded Succeeds (ServerStep fsl)) (Server.start dev fun i : Fin n => client i.val) ls v ∧
        Tracks client x ls v) (fun _ => ⟨[], _, .nil, tracks_start dev slhFirst localData⟩) ?_
    rintro x l y ih ⟨he, hstep⟩ hn
    obtain ⟨u, hu, rfl⟩ := Option.map_eq_some_iff.mp hstep
    have hmono : x.proc.clients.acquired ≤ u.clients.acquired := by
      rcases clients_step hu with ⟨-, hsame⟩ | ⟨-, hsame⟩
      · rw [hsame]
        exact Nat.le_succ _
      · rw [hsame]
    have hnote : (x.note u l).proc = u := by cases l <;> rfl
    rw [hnote] at hn
    obtain ⟨ls, v, hrun, h⟩ := ih (hmono.trans hn)
    obtain ⟨e, main, rfl, hallows, hmain, rfl⟩ | ⟨tid, e, g, s, rfl, hrunning, hs, rfl⟩ :=
      aesdsocketStep_cases hu
    · exact ⟨ls, v, hrun, h.step_main hallows hmain hn⟩
    · obtain ⟨i, v', hstep', h'⟩ := h.step_session hrunning he hs
      exact ⟨ls ++ [(i, e)], v', hrun.snoc hstep', h'⟩
  exact hall hn

/-! ## The holder of the mutex -/

/-- A step that takes the mutex starts the critical section, and one that keeps it does not leave
it. -/
lemma mutex_of_step {ι : Type} {i j : ι} {g g' : Shared ι} {s s' : Session} {e : Event}
    (he : e.Succeeds g.dev s.pc) (h : sessionStep fsl i g s e = some (g', s'))
    (hj : g'.mutex = some j) :
    (j = i ∧ s'.pc.phase = .inside) ∨
      (g.mutex = some j ∧ (s.pc.phase = .inside → s'.pc.phase = .inside)) := by
  cases sessionStep_move h with
  | lock hpc hfree => exact .inl ⟨(Option.some.inj hj).symm, rfl⟩
  | unlock hpc => exact absurd hj (by simp)
  | unlockFailed hpc => exact absurd he (by simp [Event.Succeeds])
  | @openDevice line ok hpc =>
    refine .inr ⟨hj, fun _ => ?_⟩
    unfold afterOpen
    cases parseSeekto line.bytes <;> rfl
  | callRead hpc | readFull hpc | read hpc => exact .inr ⟨hj, fun _ => afterRead_phase _ _⟩
  | callRecv hpc | recvFull hpc | recv hpc | lockFailed hpc =>
    exact .inr ⟨hj, fun hinside => absurd hinside (by simp [hpc, Pc.phase])⟩
  | _ => exact .inr ⟨hj, fun _ => rfl⟩

/-- **The thread that holds the mutex** is running, and its session is in its critical section. -/
lemma holder_of_run {dev : Driver} {slhFirst localData : Ptr} {ks : List AesdsocketEvent}
    (hrun : Run (guarded Watched.Succeeds (WatchedStep fsl client))
      (.start dev slhFirst localData) ks x) {tid : ℕ} (htid : x.proc.shared.mutex = some tid) :
    x.proc.main.threads tid ≠ none ∧ (x.proc.sess tid).pc.phase = .inside := by
  revert tid
  refine hrun.invariant (I := fun x => ∀ {tid : ℕ}, x.proc.shared.mutex = some tid →
    x.proc.main.threads tid ≠ none ∧ (x.proc.sess tid).pc.phase = .inside)
    (fun h => absurd h (by simp [Watched.start, Aesdsocket.start])) ?_
  rintro x l y hx ⟨he, hstep⟩ tid htid
  obtain ⟨u, hu, rfl⟩ := Option.map_eq_some_iff.mp hstep
  have hnote : (x.note u l).proc = u := by cases l <;> rfl
  rw [hnote] at htid ⊢
  obtain ⟨e, main, rfl, hallows, hmain, rfl⟩ | ⟨tid', e, g, s, rfl, hrunning, hs, rfl⟩ :=
    aesdsocketStep_cases hu
  · obtain ⟨hthread, hinside⟩ := hx (((x.proc.onMain_frame client e).1) ▸ htid)
    have hsess : (x.proc.onMain client e).sess tid = x.proc.sess tid := by
      rcases x.proc.onMain_sess client e tid with hsame | ⟨rfl, -⟩
      · exact hsame
      · exact absurd (threads_of_pthreadCreate hmain) hthread
    refine ⟨fun hidle => ?_, ?_⟩
    · rcases mainStep_running hmain hidle with hnone | rfl
      · exact hthread hnone
      · -- a thread that ends is done
        have hdone : (x.proc.sess tid).pc.isDone = true := hallows
        rw [isDone_of_inside hinside] at hdone
        exact absurd hdone Bool.false_ne_true
    · exact hsess.symm ▸ hinside
  · obtain ⟨hmain, hsess, -⟩ := x.proc.onSession_frame tid' e
    have hthreads : ((x.proc.onSession tid' e).moveSession tid' g s).main = x.proc.main := hmain
    have hsess' : ((x.proc.onSession tid' e).moveSession tid' g s).sess =
        Function.update x.proc.sess tid' s := by
      simp only [Aesdsocket.moveSession, hsess]
    rw [hthreads, hsess']
    rcases mutex_of_step he hs htid with ⟨rfl, hinside⟩ | ⟨hheld, hkeeps⟩
    · rw [Function.update_self]
      exact ⟨Option.isSome_iff_ne_none.mp hrunning, hinside⟩
    · obtain ⟨hthread, hinside⟩ := hx hheld
      refine ⟨hthread, ?_⟩
      rcases eq_or_ne tid tid' with rfl | hne
      · rw [Function.update_self]
        exact hkeeps hinside
      · rw [Function.update_of_ne hne]
        exact hinside

/-! ## The contract -/

/-- A session in its critical section has taken the mutex. -/
lemma Serving.not_before {ι : Type} {d : LogDevice} {line : List Byte} {i : ι} {g : Shared ι}
    {s : Session} (h : Serving d line i g s) : s.pc.phase ≠ .before := by
  cases h with
  | opening hpc | seeking hpc | written hpc => simp [hpc, Pc.phase]
  | writing hpc => rcases hpc with hpc | hpc <;> simp [hpc, Pc.phase]
  | stuck _ _ hpc => rcases hpc with hpc | ⟨st, hpc, -⟩ <;> simp [hpc, Pc.phase]
  | replying _ _ hs =>
    intro hphase
    cases hpc : s.pc with
    | callRecv | recv | takeMutex => simp only [Answers, hpc] at hs
    | _ => simp [hpc, Pc.phase] at hphase

/-- A session that holds the mutex is in the slot of its thread, which is running. -/
lemma Tracks.slot_of_serving (h : Tracks client x ls v) {d : LogDevice} {line : List Byte}
    {i : Fin n} {g : Shared (Fin n)} (hs : Serving d line i g (v.sess i))
    (hdone : (v.sess i).pc ≠ .done) :
    ∃ tid, x.serves tid = some i.val ∧ x.proc.main.threads tid ≠ none ∧
      v.sess i = x.proc.sess tid := by
  by_cases hserved : ∃ tid, x.serves tid = some i.val
  · obtain ⟨tid, htid⟩ := hserved
    obtain ⟨-, j, hj, hsame⟩ := h.served tid i htid
    obtain rfl := Fin.ext hj
    refine ⟨tid, htid, fun hidle => hdone ?_, hsame⟩
    rw [hsame]
    exact h.ended tid (by simp [htid]) hidle
  · rcases h.unserved i (fun tid htid => hserved ⟨tid, htid⟩) with hstart | hdone'
    · exact absurd (by rw [hstart]; rfl) hs.not_before
    · exact absurd hdone' hdone

/-- The session that holds the mutex of the server is in the slot of the thread that holds it in the
process, and is not done. -/
lemma Tracks.exists_holder (h : Tracks client x ls v) {d d' : LogDevice}
    {finished rest : List (Fin n)}
    (hserved : Served (fun i : Fin n => client i.val) d ls v finished rest d')
    (hholder : ∀ {tid : ℕ}, x.proc.shared.mutex = some tid →
      x.proc.main.threads tid ≠ none ∧ (x.proc.sess tid).pc.phase = .inside)
    {i : Fin n} (hi : i ∈ rest) :
    ∃ tid, x.serves tid = some i.val ∧ x.proc.shared.mutex = some tid ∧
      (x.proc.sess tid).pc ≠ .done := by
  have hheld : x.proc.shared.mutex ≠ none := fun hnone => by
    have hmutex := (hserved.serving i hi).1
    rw [h.mutex_iff.mpr hnone] at hmutex
    exact absurd hmutex (by simp)
  obtain ⟨tid, htid⟩ := Option.ne_none_iff_exists'.mp hheld
  obtain ⟨hrunning, hinside⟩ := hholder htid
  obtain ⟨k, hk⟩ := Option.ne_none_iff_exists'.mp (h.running tid hrunning)
  obtain ⟨-, j, rfl, hsame⟩ := h.served tid k hk
  have hnot : (x.proc.sess tid).pc ≠ .done := fun hdone => by simp [hdone, Pc.phase] at hinside
  -- only the session in `rest` is in its critical section
  have hj : j ∈ rest := by
    by_cases hmem : j ∈ lockOrder ls
    · rw [hserved.order_eq, List.mem_append] at hmem
      exact hmem.resolve_left fun hdone => hnot (hsame ▸ hserved.done j hdone)
    · exact absurd (hsame ▸ hinside) (hserved.waiting j hmem).2
  obtain rfl : j = i :=
    Option.some.inj ((hserved.serving j hj).1.symm.trans (hserved.serving i hi).1)
  exact ⟨tid, hk, htid, hnot⟩

/-- **The contract of the process.** Take any run of the whole process from a device that is free:
any number of clients with any bytes to send, `main` failing at any place, signals, and thread
identifiers used again, while in the steps of the sessions everything that may fail succeeds. The
clients whose sessions took the mutex and are done have each had the service of one operation, in the
order in which they took it, and at most one more session took it: it holds it still, is not done, and
has sent a prefix of such a reply. No other client has received a byte. When `main` has returned no
thread is running, no session holds the mutex, and the device shows exactly these operations.

**Proof sketch.** The run is one of the server of all its sessions, which is linearized. A session
that holds the mutex is not done, so its thread is running, and `main` waits for it. -/
theorem process_contract (fsl : FixedSizeLlseek) {dev : Driver} {d : LogDevice} (hdev : Shows dev d)
    (hlock : d.locked = false) {client : ℕ → List Byte} {slhFirst localData : Ptr}
    {ks : List AesdsocketEvent} {x : Watched}
    (hrun : Run (guarded Watched.Succeeds (WatchedStep fsl client))
      (.start dev slhFirst localData) ks x) :
    x.order.Nodup ∧
      (∀ k ∉ x.order, x.received k = []) ∧
      ∃ finished rest d', x.order = finished ++ rest ∧ rest.length ≤ 1 ∧
        Run ServeStep d (finished.map fun k => (lineOf (client k), x.received k)) d' ∧
        (rest = [] → Shows x.proc.shared.dev d' ∧ x.proc.shared.mutex = none) ∧
        (∀ k ∈ finished, ∀ tid, x.serves tid = some k → (x.proc.sess tid).pc = .done) ∧
        (∀ k ∈ rest, ∃ tid, x.serves tid = some k ∧ x.proc.shared.mutex = some tid ∧
          (x.proc.sess tid).pc ≠ .done) ∧
        (∀ k ∈ rest, x.received k = [] ∨ ∃ d'' pos, Takes d' (lineOf (client k)) d'' pos ∧
          Shows x.proc.shared.dev d'' ∧ x.received k <+: replyTo (d''.held.flatten.drop pos)) ∧
        (x.proc.main.pc = .exited → rest = [] ∧ ∀ tid, x.proc.main.threads tid = none) := by
  have hcontract : ∀ n, x.proc.clients.acquired ≤ n → ∃ (ls : List (Fin n × Event)) (v : Server n),
      Tracks client x ls v ∧
        ∃ finished rest d', Served (fun i : Fin n => client i.val) d ls v finished rest d' := by
    intro n hn
    obtain ⟨ls, v, hserver, h⟩ := exists_tracks hrun hn
    exact ⟨ls, v, h, exists_served hdev hlock hserver⟩
  obtain ⟨ls, v, h, finished, rest, d', hserved⟩ := hcontract _ le_rfl
  refine ⟨?_, fun k hk => ?_, finished.map Fin.val, rest.map Fin.val, d', ?_, ?_, ?_, ?_, ?_, ?_, ?_, ?_⟩
  · rw [h.order_eq]
    exact hserved.nodup.map Fin.val_injective
  · -- a client with a number beyond those accepted is no exception
    obtain ⟨ls', v', h', _, _, _, hserved'⟩ := hcontract (x.proc.clients.acquired + (k + 1))
      (Nat.le_add_right _ _)
    set i : Fin (x.proc.clients.acquired + (k + 1)) := ⟨k, by omega⟩
    have hnot : i ∉ lockOrder ls' := fun hmem =>
      hk (h'.order_eq ▸ List.mem_map_of_mem hmem)
    exact (h'.received_eq i).trans (hserved'.waiting i hnot).1.2
  · rw [h.order_eq, hserved.order_eq, List.map_append]
  · rw [List.length_map]
    exact hserved.length_le
  · have hresults : (finished.map Fin.val).map (fun k => (lineOf (client k), x.received k)) =
        finished.map fun i => (lineOf (client i.val), (v.sess i).sent) := by
      rw [List.map_map]
      exact List.map_congr_left fun i _ => by simp [h.received_eq i]
    rw [hresults]
    exact hserved.run
  · intro hnil
    have hrest := hserved.related (List.map_eq_nil_iff.mp hnil)
    exact ⟨h.dev_eq ▸ hrest.dev, h.mutex_iff.mp hrest.mutex_eq⟩
  · intro k hk tid htid
    obtain ⟨i, hi, rfl⟩ := List.mem_map.mp hk
    obtain ⟨-, j, hj, hsame⟩ := h.served tid i htid
    obtain rfl := Fin.ext hj
    rw [← hsame]
    exact hserved.done j hi
  · intro k hk
    obtain ⟨i, hi, rfl⟩ := List.mem_map.mp hk
    exact h.exists_holder hserved (holder_of_run hrun) hi
  · intro k hk
    obtain ⟨i, hi, rfl⟩ := List.mem_map.mp hk
    rw [h.received_eq i, ← h.dev_eq]
    exact Serving.sent_prefix (hserved.serving i hi).2
  · intro hpc
    have hnone := threads_of_exited h.main hpc
    refine ⟨?_, hnone⟩
    rw [List.map_eq_nil_iff, List.eq_nil_iff_forall_not_mem]
    intro i hi
    obtain ⟨hmutex, hserving⟩ := hserved.serving i hi
    have hdone := (hserving.mutex_eq (by simp [hmutex])).2
    obtain ⟨tid, -, htid, -⟩ := h.slot_of_serving hserving hdone
    exact htid (hnone tid)

/-! ## A run with two clients -/

instance (x : Watched) : (l : AesdsocketEvent) → Decidable (x.Succeeds l)
  | .main _ => .isTrue trivial
  | .session tid e => inferInstanceAs (Decidable (e.Succeeds x.proc.shared.dev (x.proc.sess tid).pc))

/-- The session of a thread receives a line of two bytes. -/
def receivesLine (tid : ℕ) : List AesdsocketEvent := receiveLine.map (.session tid)

/-- It writes the line to a block at `data`, replies with so many lines of two bytes, and its thread
finishes. -/
def echoesLines (tid data lines : ℕ) : List AesdsocketEvent :=
  (echoLines data lines).map (.session tid) ++
    List.map AesdsocketEvent.main
      [.thread tid .setSuccess, .thread tid .setComplete, .thread tid .finish]

/-- `main` accepts two clients and walks its list after each; the second receives its line first, but
the first is served first; then a signal ends the loop, and `main` joins both and returns. -/
def servedClients : List AesdsocketEvent :=
  List.map AesdsocketEvent.main (firstSession ++ List.replicate 5 .next ++
      [.listen true, .accept true, .malloc (some 2), .pthreadCreate (some 2)] ++
      List.replicate 6 .next) ++
    receivesLine 2 ++ receivesLine 1 ++ echoesLines 1 2 1 ++ echoesLines 2 3 2 ++
    List.map AesdsocketEvent.main
      ([.signal, .next, .next, .next, .malloc none] ++ List.replicate 10 .next)

/-- A run with two clients that send `"a\n"` and `"b\n"`: `main` returns, the first client has
received its line and the second both lines, and the device shows these two operations. -/
theorem process_contract_two_clients :
    ∃ x d, Run (guarded Watched.Succeeds
        (WatchedStep fixedSizeLlseek fun k => if k = 0 then [97, 10] else [98, 10]))
        (.start (initialDriver 0) none none) servedClients x ∧
      x.proc.main.pc = .exited ∧
      Run ServeStep ⟨.empty, false⟩ [([97, 10], [97, 10]), ([98, 10], [97, 10, 98, 10])] d ∧
      Shows x.proc.shared.dev d ∧ ∀ tid, x.proc.main.threads tid = none := by
  set client : ℕ → List Byte := fun k => if k = 0 then [97, 10] else [98, 10] with hclient
  have hfold : ((servedClients.foldlM (fun (x : Watched) l =>
      if x.Succeeds l then watchedStep fixedSizeLlseek client x l else none)
        (.start (initialDriver 0) none none)).map fun x =>
          (x.proc.main.pc, x.order, x.received 0, x.received 1)) =
      some (.exited, [0, 1], [97, 10], [97, 10, 98, 10]) := by
    decide +kernel
  obtain ⟨x, hx, hseen⟩ := Option.map_eq_some_iff.mp hfold
  simp only [Prod.mk.injEq] at hseen
  obtain ⟨hpc, horder, hfirst, hsecond⟩ := hseen
  have hrun : Run (guarded Watched.Succeeds (WatchedStep fixedSizeLlseek client))
      (.start (initialDriver 0) none none) servedClients x := by
    refine Run.of_foldlM ?_ hx
    intro x l y h
    split_ifs at h with hl
    exact ⟨hl, h⟩
  have hdev : Initialised (initialDriver 0) := initialised_iff.mpr ⟨0, rfl⟩
  obtain ⟨-, -, finished, rest, d, hsplit, -, hserve, hrest, -, -, -, hexit⟩ :=
    process_contract fixedSizeLlseek hdev.shows rfl hrun
  obtain ⟨rfl, hidle⟩ := hexit hpc
  rw [horder, List.append_nil] at hsplit
  simp only [← hsplit, List.map_cons, List.map_nil, hfirst, hsecond] at hserve
  exact ⟨x, d, hrun, hpc, hserve, (hrest rfl).1, hidle⟩

end Aesd
