import Aesd.Lib.Ledger
import Aesd.Server.NodeLifecycle
import Aesd.Server.Session

set_option relaxedAutoImplicit false
set_option autoImplicit false

/-!
# The descriptors of the server

The whole process: `main` with its session nodes, the session threads, and the descriptors. `main`
stores the descriptor that `accept` returns in the node, from where the session takes it; a session
opens the device for itself. The descriptors returned by `accept` and those of the device are
numbered in two ledgers.

A session closes its device before it releases the mutex. The descriptor of a client is closed by
nobody.

The sessions set the flags of their nodes and end their threads in steps of their own, at any time
after the place in `sock_thread_func` that does so.

## Main definitions

* `Aesd.Aesdsocket`, `Aesd.aesdsocketStep` — the process, and one step of it.
* `Aesd.DevicePhase`, `Aesd.PhaseMove` — where a session is with the device, and how it moves.
* `Aesd.DevicesClosed`, `Aesd.ClientsClosed`, `Aesd.ClientsBounded` — what is to hold of the
  descriptors.

## Main results

* `Aesd.sessionStep_phase` — one step of a session.
* `Aesd.DevicesOk.session`, `Aesd.DevicesOk.main` — one step of the process.
* `Aesd.descriptor_lifecycle` — which descriptors are closed.
-/

namespace Aesd

open Transition

/-! ## The process -/

/-- The state of the process: `main` with the nodes, the device and the mutex, the sessions by their
thread, the variable `spkr_fd`, the field `client_fd` of each node, the device descriptor of each
session, and the two ledgers. -/
structure Aesdsocket where
  main : MainState
  shared : Shared ℕ
  sess : ℕ → Session
  spkrFd : Option ℕ
  clientFd : ℕ → Option ℕ
  fd : ℕ → Option ℕ
  clients : Ledger
  devices : Ledger

/-- A step of `main` or of a thread that concerns the nodes, or a step of a session. -/
inductive AesdsocketEvent where
  | main (e : MainEvent)
  | session (tid : ℕ) (e : Event)

namespace Aesdsocket

/-- A session sets a flag of its node when it has set it, and ends its thread when it is done. -/
def allows (t : Aesdsocket) : MainEvent → Bool
  | .thread tid .setSuccess => (t.sess tid).threadSuccess
  | .thread tid .setComplete => (t.sess tid).threadComplete
  | .thread tid .finish => (t.sess tid).pc.isDone
  | _ => true

/-- `accept` returns a new descriptor. -/
def accept (t : Aesdsocket) : Aesdsocket :=
  { t with spkrFd := some t.clients.acquired, clients := t.clients.acquire }

/-- `start_socket_thread` stores the descriptor in the node. The new thread, if there is one, starts
a session with the client of this descriptor. -/
def startSocketThread (client : ℕ → List Byte) (t : Aesdsocket) (tid : Option ℕ) : Aesdsocket :=
  { t with
    clientFd := match t.main.localData with
      | none => t.clientFd
      | some p => Function.update t.clientFd p t.spkrFd
    sess := match tid with
      | none => t.sess
      | some tid => Function.update t.sess tid (.start ((t.spkrFd.map client).getD [])) }

/-- What a step of `main` does with the descriptors. -/
def onMain (client : ℕ → List Byte) (t : Aesdsocket) : MainEvent → Aesdsocket
  | .accept true => t.accept
  | .pthreadCreate tid => t.startSocketThread client tid
  | _ => t

/-- `main` goes on; the fields of a node exist as long as the node. -/
def moveMain (t : Aesdsocket) (main : MainState) : Aesdsocket :=
  { t with
    main
    clientFd := fun p => if (main.heap.cell p).isSome then t.clientFd p else none }

/-- What a step of a session does with its device descriptor: `open` returns a new one, or fails;
`close` closes it. -/
def onSession (t : Aesdsocket) (tid : ℕ) : Event → Aesdsocket
  | .openDevice true =>
    { t with fd := Function.update t.fd tid (some t.devices.acquired), devices := t.devices.acquire }
  | .openDevice false => { t with fd := Function.update t.fd tid none }
  | .closeDevice => { t with devices := t.devices.release (t.fd tid) }
  | _ => t

/-- The session of a thread goes on. -/
def moveSession (t : Aesdsocket) (tid : ℕ) (g : Shared ℕ) (s : Session) : Aesdsocket :=
  { t with shared := g, sess := Function.update t.sess tid s }

/-- The process at its start, with the device and whatever the variables of `main` hold. -/
def start (dev : Driver) (slhFirst localData : Ptr) : Aesdsocket where
  main := .start slhFirst localData
  shared := ⟨dev, none⟩
  sess _ := .start []
  spkrFd := none
  clientFd _ := none
  fd _ := none
  clients := .empty
  devices := .empty

end Aesdsocket

/-- One step of the process, whose clients will send these bytes; `none` if the outcome is not one
of the step's, or the step blocks. -/
def aesdsocketStep (fsl : FixedSizeLlseek) (client : ℕ → List Byte) (t : Aesdsocket) :
    AesdsocketEvent → Option Aesdsocket
  | .main e =>
    if t.allows e then (processStep t.main e).map fun main => (t.onMain client e).moveMain main
    else none
  | .session tid e =>
    if t.main.ended = false ∧ (t.main.threads tid).isSome then
      (sessionStep fsl tid t.shared (t.sess tid) e).map fun r =>
        (t.onSession tid e).moveSession tid r.1 r.2
    else none

/-- The step relation of the process. -/
def AesdsocketStep (fsl : FixedSizeLlseek) (client : ℕ → List Byte) (t : Aesdsocket)
    (l : AesdsocketEvent) (u : Aesdsocket) : Prop :=
  aesdsocketStep fsl client t l = some u

/-! ## The device of a session -/

/-- Where a session is with the device: it does not hold the mutex, or it holds the mutex and has not
opened the device, has opened it, or has closed it. -/
inductive DevicePhase where
  | outside
  | opening
  | opened
  | closed
deriving DecidableEq

/-- The phase of a place. -/
def Pc.devicePhase : Pc → DevicePhase
  | .callRecv | .recv _ | .takeMutex _ | .done => .outside
  | .openDevice _ => .opening
  | .unlock => .closed
  | _ => .opened

/-- The moves of session `i`, by its phase and the holder of the mutex. -/
inductive PhaseMove {ι : Type} (i : ι) :
    DevicePhase → Option ι → Event → DevicePhase → Option ι → Prop
  | stay {d : DevicePhase} {m : Option ι} {e : Event} (hopen : ∀ ok, e ≠ .openDevice ok)
      (hclose : e ≠ .closeDevice) : PhaseMove i d m e d m
  | lock : PhaseMove i .outside none (.lock true) .opening (some i)
  | openDevice {m : Option ι} {ok : Bool} : PhaseMove i .opening m (.openDevice ok) .opened m
  | closeDevice {m : Option ι} : PhaseMove i .opened m .closeDevice .closed m
  | unlock {m : Option ι} : PhaseMove i .closed m (.unlock true) .outside none
  | unlockFailed {m : Option ι} : PhaseMove i .closed m (.unlock false) .outside m

/-- While it receives its line a session is outside. -/
lemma Session.afterRecv_phase (s : Session) (o : RutOutcome) :
    (s.afterRecv o).pc.devicePhase = .outside := by
  cases o with
  | running st => rfl
  | returned line flag => cases line <;> rfl

/-- While it replies a session has opened the device. -/
lemma Session.afterRead_phase (s : Session) (o : RutOutcome) :
    (s.afterRead o).pc.devicePhase = .opened := by
  cases o with
  | running st => rfl
  | returned line flag =>
    simp only [Session.afterRead]
    split_ifs
    · rfl
    · cases line <;> rfl
    · rfl

/-- After `open` a session writes its line or seeks. -/
lemma afterOpen_phase (s : Session) (line : Line) (ok : Bool) :
    (afterOpen s line ok).pc.devicePhase = .opened := by
  simp only [afterOpen]
  split <;> rfl

/-- **One step of a session** is one of the moves. -/
lemma sessionStep_phase {ι : Type} {fsl : FixedSizeLlseek} {i : ι} {g g' : Shared ι}
    {s s' : Session} {e : Event} (h : sessionStep fsl i g s e = some (g', s')) :
    PhaseMove i s.pc.devicePhase g.mutex e s'.pc.devicePhase g'.mutex := by
  have hmove : SessionMove fsl i g s e g' s' := sessionStep_move h
  cases hmove with
  | callRecv hpc | recvFull hpc | recv hpc =>
    rw [hpc, Session.afterRecv_phase]
    exact .stay (by simp) (by simp)
  | lock hpc hfree =>
    rw [hpc, hfree]
    exact .lock
  | openDevice hpc =>
    rw [hpc, afterOpen_phase]
    exact .openDevice
  | callRead hpc | readFull hpc | read hpc =>
    rw [hpc, Session.afterRead_phase]
    exact .stay (by simp) (by simp)
  | closeDevice hpc =>
    rw [hpc]
    exact .closeDevice
  | unlock hpc =>
    rw [hpc]
    exact .unlock
  | unlockFailed hpc =>
    rw [hpc]
    exact .unlockFailed
  | lockFailed hpc | seekWrite hpc | writeClosed hpc | write hpc | seekRead hpc | ioctlClosed hpc
  | ioctl hpc | send hpc =>
    rw [hpc]
    exact .stay (by simp) (by simp)

/-! ## The device descriptors -/

namespace Aesdsocket

/-- The phase of the session of a thread. -/
def phase (t : Aesdsocket) (tid : ℕ) : DevicePhase := (t.sess tid).pc.devicePhase

/-- The device descriptor that the session of a thread has open. -/
def openFd (t : Aesdsocket) (tid : ℕ) : Option ℕ :=
  if t.phase tid = .opened then t.fd tid else none

/-- The device descriptor that the holder of the mutex has open. -/
def heldFds (t : Aesdsocket) : List ℕ := (t.shared.mutex.bind t.openFd).toList

end Aesdsocket

/-- A session that is not outside holds the mutex, the session of a thread that is not running is
outside, and every device descriptor has been closed once, but for the one that the holder of the
mutex has open. -/
structure DevicesOk (t : Aesdsocket) : Prop where
  holder : ∀ tid, t.phase tid ≠ .outside → t.shared.mutex = some tid
  running : ∀ tid, t.main.threads tid = none → t.phase tid = .outside
  owes : t.devices.Owes t.heldFds

/-- Every device descriptor has been closed exactly once, or is open in the session that holds the
mutex and has not come to its `close`. -/
def DevicesClosed (t : Aesdsocket) : Prop :=
  t.devices.SettledBut fun k =>
    ∃ tid, t.shared.mutex = some tid ∧ t.phase tid = .opened ∧ t.fd tid = some k

variable {fsl : FixedSizeLlseek} {client : ℕ → List Byte} {t u : Aesdsocket}

/-- The invariant says where the open descriptors are. -/
lemma DevicesOk.closed (h : DevicesOk t) : DevicesClosed t := by
  refine h.owes.settledBut fun k hk => ?_
  rw [Aesdsocket.heldFds, Option.mem_toList, Option.bind_eq_some_iff] at hk
  obtain ⟨tid, hmutex, hfd⟩ := hk
  unfold Aesdsocket.openFd at hfd
  split_ifs at hfd with hphase
  exact ⟨tid, hmutex, hphase, hfd⟩

namespace Aesdsocket

/-- While nobody holds the mutex no device descriptor is open. -/
lemma heldFds_free (h : t.shared.mutex = none) : t.heldFds = [] := by
  rw [heldFds, h]
  rfl

/-- The holder of the mutex has its device open. -/
lemma heldFds_opened {tid : ℕ} (h : t.shared.mutex = some tid) (hphase : t.phase tid = .opened) :
    t.heldFds = (t.fd tid).toList := by
  rw [heldFds, h, Option.bind_some, openFd, if_pos hphase]

/-- The holder of the mutex does not have its device open. -/
lemma heldFds_not_opened {tid : ℕ} (h : t.shared.mutex = some tid) (hphase : t.phase tid ≠ .opened) :
    t.heldFds = [] := by
  rw [heldFds, h, Option.bind_some, openFd, if_neg hphase]
  rfl

/-- The descriptors that are open depend on the holder of the mutex only. -/
lemma heldFds_congr (hmutex : u.shared.mutex = t.shared.mutex)
    (hphase : ∀ tid, t.shared.mutex = some tid → u.phase tid = t.phase tid) (hfd : u.fd = t.fd) :
    u.heldFds = t.heldFds := by
  unfold heldFds
  rw [hmutex]
  cases hm : t.shared.mutex with
  | none => rfl
  | some tid => rw [Option.bind_some, Option.bind_some, openFd, openFd, hphase tid hm, hfd]

/-- Only `open` and `close` concern the device descriptors. -/
lemma onSession_of_ne (tid : ℕ) {e : Event} (hopen : ∀ ok, e ≠ .openDevice ok)
    (hclose : e ≠ .closeDevice) : t.onSession tid e = t := by
  cases e with
  | openDevice ok => exact absurd rfl (hopen ok)
  | closeDevice => exact absurd rfl hclose
  | _ => rfl

/-- A step of a session leaves `main` and the descriptors of the clients alone. -/
lemma onSession_frame (t : Aesdsocket) (tid : ℕ) (e : Event) :
    (t.onSession tid e).main = t.main ∧ (t.onSession tid e).sess = t.sess ∧
      (t.onSession tid e).clients = t.clients := by
  cases e with
  | openDevice ok => cases ok <;> exact ⟨rfl, rfl, rfl⟩
  | _ => exact ⟨rfl, rfl, rfl⟩

/-- The phases after a step of a session. -/
lemma phase_moveSession (t : Aesdsocket) (tid : ℕ) (e : Event) (g : Shared ℕ) (s : Session) :
    ((t.onSession tid e).moveSession tid g s).phase =
      Function.update t.phase tid s.pc.devicePhase := by
  funext j
  rcases eq_or_ne j tid with rfl | hj
  · simp [phase, moveSession]
  · simp [phase, moveSession, hj, (t.onSession_frame tid e).2.1]

end Aesdsocket

/-- **A session that is not outside holds the mutex**, also after a move. -/
lemma PhaseMove.holder {ι : Type} [DecidableEq ι] {i : ι} {phase : ι → DevicePhase}
    {d : DevicePhase} {m m' : Option ι} {e : Event} (hmove : PhaseMove i (phase i) m e d m')
    (h : ∀ j, phase j ≠ .outside → m = some j) (j : ι)
    (hj : Function.update phase i d j ≠ .outside) : m' = some j := by
  generalize hd : phase i = d₀ at hmove
  rcases eq_or_ne j i with rfl | hji
  · rw [Function.update_self] at hj
    cases hmove with
    | stay => exact h j (hd ▸ hj)
    | lock => rfl
    | openDevice => exact h j (by simp [hd])
    | closeDevice => exact h j (by simp [hd])
    | unlock | unlockFailed => exact absurd rfl hj
  · rw [Function.update_of_ne hji] at hj
    have hm := h j hj
    have hother : phase i = .outside := by
      by_contra hi
      exact hji (Option.some.inj (hm.symm.trans (h i hi)))
    rw [hd] at hother
    cases hmove with
    | stay => exact hm
    | lock => exact absurd hm (by simp)
    | openDevice | closeDevice | unlock | unlockFailed => exact absurd hother (by simp)

/-- The device descriptors after a step of a session: it opens its device only while it holds the
mutex, and closes what it has opened before it releases the mutex. -/
lemma DevicesOk.owes_session (h : DevicesOk t) {tid : ℕ} {e : Event} {g : Shared ℕ} {s : Session}
    (hstep : sessionStep fsl tid t.shared (t.sess tid) e = some (g, s)) :
    ((t.onSession tid e).moveSession tid g s).devices.Owes
      ((t.onSession tid e).moveSession tid g s).heldFds := by
  have hphase := t.phase_moveSession tid e g s
  have hself : ((t.onSession tid e).moveSession tid g s).phase tid = s.pc.devicePhase := by
    rw [hphase, Function.update_self]
  have hmove : PhaseMove tid (t.phase tid) t.shared.mutex e s.pc.devicePhase g.mutex :=
    sessionStep_phase hstep
  have howes := h.owes
  have hholder := h.holder tid
  generalize hd : t.phase tid = d at hmove hholder
  generalize hm : t.shared.mutex = m at hmove hholder
  generalize hd' : s.pc.devicePhase = d' at hmove hself
  generalize hm' : g.mutex = m' at hmove
  cases hmove with
  | stay hopen hclose =>
    rw [Aesdsocket.onSession_of_ne tid hopen hclose] at hphase ⊢
    have hheld : (t.moveSession tid g s).heldFds = t.heldFds := by
      refine Aesdsocket.heldFds_congr (hm'.trans hm.symm) (fun j _ => ?_) rfl
      rw [hphase]
      rcases eq_or_ne j tid with rfl | hj
      · rw [Function.update_self, hd', hd]
      · rw [Function.update_of_ne hj]
    rw [hheld]
    exact howes
  | lock =>
    rw [Aesdsocket.heldFds_free hm] at howes
    rw [Aesdsocket.heldFds_not_opened hm' (by simp [hself])]
    exact howes
  | @openDevice _ ok =>
    have hmutex := hholder (by simp)
    rw [Aesdsocket.heldFds_not_opened (hm.trans hmutex) (by simp [hd])] at howes
    rw [Aesdsocket.heldFds_opened (hm'.trans hmutex) hself]
    cases ok with
    | false => simpa [Aesdsocket.onSession, Aesdsocket.moveSession] using howes
    | true => simpa [Aesdsocket.onSession, Aesdsocket.moveSession] using howes.acquire
  | closeDevice =>
    have hmutex := hholder (by simp)
    rw [Aesdsocket.heldFds_opened (hm.trans hmutex) hd] at howes
    rw [Aesdsocket.heldFds_not_opened (hm'.trans hmutex) (by simp [hself])]
    show (t.devices.release (t.fd tid)).Owes []
    cases hfd : t.fd tid with
    | none => simpa [hfd] using howes
    | some k =>
      rw [hfd] at howes
      exact howes.release
  | unlock =>
    have hmutex := hholder (by simp)
    rw [Aesdsocket.heldFds_not_opened (hm.trans hmutex) (by simp [hd])] at howes
    rw [Aesdsocket.heldFds_free hm']
    exact howes
  | unlockFailed =>
    have hmutex := hholder (by simp)
    rw [Aesdsocket.heldFds_not_opened (hm.trans hmutex) (by simp [hd])] at howes
    rw [Aesdsocket.heldFds_not_opened (hm'.trans hmutex) (by simp [hself])]
    exact howes

/-- **One step of a session** keeps the invariant. -/
lemma DevicesOk.session (h : DevicesOk t) {tid : ℕ} {e : Event} {g : Shared ℕ} {s : Session}
    (hrunning : (t.main.threads tid).isSome)
    (hstep : sessionStep fsl tid t.shared (t.sess tid) e = some (g, s)) :
    DevicesOk ((t.onSession tid e).moveSession tid g s) := by
  have hphase := t.phase_moveSession tid e g s
  have hmove : PhaseMove tid (t.phase tid) t.shared.mutex e s.pc.devicePhase g.mutex :=
    sessionStep_phase hstep
  refine ⟨?_, ?_, h.owes_session hstep⟩
  · intro j hj
    rw [hphase] at hj
    exact hmove.holder h.holder j hj
  · intro j hj
    have hidle : t.main.threads j = none := (t.onSession_frame tid e).1 ▸ hj
    have hne : j ≠ tid := by
      rintro rfl
      rw [hidle] at hrunning
      exact absurd hrunning Bool.false_ne_true
    rw [hphase, Function.update_of_ne hne]
    exact h.running j hidle

/-! ## The steps of `main` -/

/-- A new thread was not running before. -/
lemma threads_of_pthreadCreate {st st' : MainState} {tid : ℕ}
    (hs : MainStep st (.pthreadCreate (some tid)) st') : st.threads tid = none := by
  obtain ⟨-, ⟨he, -⟩ | ⟨_, _, _, he, -⟩ | hs⟩ := processStep_cases hs
  · exact absurd he (by simp)
  · exact absurd he (by simp)
  · cases hpc : st.pc <;> simp [mainStep, hpc] at hs
    exact hs.1

/-- A step of `main` or of a thread on its node changes the running threads by starting or ending
one. -/
lemma mainStep_running {st st' : MainState} {e : MainEvent} (hs : MainStep st e st') {tid : ℕ}
    (hidle : st'.threads tid = none) : st.threads tid = none ∨ e = .thread tid .finish := by
  obtain ⟨-, ⟨-, rfl⟩ | ⟨tid', act, p, rfl, -, rfl⟩ | hs⟩ := processStep_cases hs
  · exact .inl hidle
  · cases act with
    | finish =>
      rcases eq_or_ne tid tid' with rfl | hne
      · exact .inr rfl
      · have hidle : Function.update st.threads tid' none tid = none := hidle
        rw [Function.update_of_ne hne] at hidle
        exact .inl hidle
    | _ =>
      rw [threadStep_threads st tid' p (by simp)] at hidle
      exact .inl hidle
  · rcases mainStep_threads hs with hsame | ⟨tid', p, -, hfree, hnew⟩
    · rw [hsame] at hidle
      exact .inl hidle
    · rcases eq_or_ne tid tid' with rfl | hne
      · exact .inl hfree
      · rw [hnew, Function.update_of_ne hne] at hidle
        exact .inl hidle

/-- A step of `main` leaves the device descriptors alone. -/
lemma Aesdsocket.onMain_frame (client : ℕ → List Byte) (t : Aesdsocket) (e : MainEvent) :
    (t.onMain client e).shared = t.shared ∧ (t.onMain client e).fd = t.fd ∧
      (t.onMain client e).devices = t.devices := by
  cases e with
  | accept ok => cases ok <;> exact ⟨rfl, rfl, rfl⟩
  | _ => exact ⟨rfl, rfl, rfl⟩

/-- Only a new thread starts a session. -/
lemma Aesdsocket.onMain_sess (client : ℕ → List Byte) (t : Aesdsocket) (e : MainEvent) (tid : ℕ) :
    (t.onMain client e).sess tid = t.sess tid ∨
      (e = .pthreadCreate (some tid) ∧ ∃ bytes, (t.onMain client e).sess tid = .start bytes) := by
  cases e with
  | accept ok => cases ok <;> exact .inl rfl
  | pthreadCreate new =>
    cases new with
    | none => exact .inl rfl
    | some new =>
      rcases eq_or_ne tid new with rfl | hne
      · exact .inr ⟨rfl, _, Function.update_self ..⟩
      · exact .inl (Function.update_of_ne hne ..)
  | _ => exact .inl rfl

/-- **One step of `main`**: a new session is outside, and so is one whose thread ends. -/
lemma DevicesOk.main (h : DevicesOk t) {e : MainEvent} {main : MainState}
    (hallows : t.allows e = true) (hs : MainStep t.main e main) :
    DevicesOk ((t.onMain client e).moveMain main) := by
  obtain ⟨hshared, hfd, hdevices⟩ := t.onMain_frame client e
  have hphase : ∀ tid, ((t.onMain client e).moveMain main).phase tid = t.phase tid := by
    intro tid
    rcases t.onMain_sess client e tid with hsess | ⟨rfl, bytes, hsess⟩
    · exact congrArg (fun s => s.pc.devicePhase) hsess
    · rw [h.running tid (threads_of_pthreadCreate hs)]
      exact congrArg (fun s => s.pc.devicePhase) hsess
  have hmutex : ((t.onMain client e).moveMain main).shared.mutex = t.shared.mutex :=
    congrArg Shared.mutex hshared
  refine ⟨?_, ?_, ?_⟩
  · intro tid htid
    rw [hphase] at htid
    rw [hmutex]
    exact h.holder tid htid
  · intro tid hidle
    rw [hphase]
    rcases mainStep_running hs hidle with hidle | rfl
    · exact h.running tid hidle
    · have hdone : (t.sess tid).pc.isDone = true := hallows
      rw [Aesdsocket.phase, Pc.eq_done_of_isDone hdone]
      rfl
  · rw [Aesdsocket.heldFds_congr hmutex (fun tid _ => hphase tid) hfd]
    show (t.onMain client e).devices.Owes t.heldFds
    rw [hdevices]
    exact h.owes

/-! ## Whole runs -/

/-- A client has a session node, or `main` is about to give it one. -/
def Aesdsocket.HasNode (t : Aesdsocket) (k : ℕ) : Prop :=
  ((t.main.pc = .malloc ∨ t.main.pc = .startThread) ∧ t.spkrFd = some k) ∨
    ∃ p, t.clientFd p = some k

/-- Every client descriptor has been closed exactly once, or not yet while the client has a node. -/
def ClientsClosed (t : Aesdsocket) : Prop := t.clients.SettledBut t.HasNode

/-- There are no more client descriptors open than nodes in the list, but for a client that has just
been accepted. -/
def ClientsBounded (t : Aesdsocket) : Prop :=
  ∀ addrs, Nodes t.main.heap t.main.slhFirst addrs →
    t.clients.outstanding ≤ addrs.length + if t.main.pc = .malloc then 1 else 0

/-- The event that a connection is accepted. -/
def acceptEvent : AesdsocketEvent := .main (.accept true)

/-- A step of the process is one of `main` or of a thread on its node, or one of a session. -/
lemma aesdsocketStep_cases {l : AesdsocketEvent} (h : AesdsocketStep fsl client t l u) :
    (∃ e main, l = .main e ∧ t.allows e = true ∧ MainStep t.main e main ∧
        u = (t.onMain client e).moveMain main) ∨
      ∃ tid e g s, l = .session tid e ∧ (t.main.threads tid).isSome ∧
        sessionStep fsl tid t.shared (t.sess tid) e = some (g, s) ∧
        u = (t.onSession tid e).moveSession tid g s := by
  unfold AesdsocketStep at h
  cases l with
  | main e =>
    simp only [aesdsocketStep] at h
    split_ifs at h with hallows
    obtain ⟨main, hmain, rfl⟩ := Option.map_eq_some_iff.mp h
    exact .inl ⟨e, main, rfl, hallows, hmain, rfl⟩
  | session tid e =>
    simp only [aesdsocketStep] at h
    split_ifs at h with hrunning
    obtain ⟨⟨g, s⟩, hstep, rfl⟩ := Option.map_eq_some_iff.mp h
    exact .inr ⟨tid, e, g, s, rfl, hrunning.2, hstep, rfl⟩

/-- **One step of the process** keeps the invariant of the device descriptors. -/
lemma DevicesOk.step (h : DevicesOk t) {l : AesdsocketEvent}
    (hstep : AesdsocketStep fsl client t l u) : DevicesOk u := by
  obtain ⟨e, main, -, hallows, hmain, rfl⟩ | ⟨tid, e, g, s, -, hrunning, hsession, rfl⟩ :=
    aesdsocketStep_cases hstep
  · exact h.main hallows hmain
  · exact h.session hrunning hsession

/-- At the start no session has opened the device. -/
lemma devicesOk_start (dev : Driver) (slhFirst localData : Ptr) :
    DevicesOk (.start dev slhFirst localData) := by
  refine ⟨fun tid htid => absurd rfl htid, fun _ _ => rfl, ?_⟩
  rw [Aesdsocket.heldFds_free rfl]
  exact Ledger.Owes.empty

/-- **One step of the process** closes no client descriptor, and returns a new one only if it accepts
a connection. -/
lemma clients_step {l : AesdsocketEvent} (hstep : AesdsocketStep fsl client t l u) :
    (l = acceptEvent ∧ u.clients = t.clients.acquire) ∨
      (l ≠ acceptEvent ∧ u.clients = t.clients) := by
  obtain ⟨e, main, rfl, -, -, rfl⟩ | ⟨tid, e, g, s, rfl, -, -, rfl⟩ := aesdsocketStep_cases hstep
  · cases e with
    | accept ok =>
      cases ok with
      | false => exact .inr ⟨by simp [acceptEvent], rfl⟩
      | true => exact .inl ⟨rfl, rfl⟩
    | _ => exact .inr ⟨by simp [acceptEvent], rfl⟩
  · exact .inr ⟨by simp [acceptEvent], (t.onSession_frame tid e).2.2⟩

/-- In every run no client descriptor is closed, and there are some exactly if a connection was
accepted. -/
lemma clients_run {dev : Driver} {slhFirst localData : Ptr} {ls : List AesdsocketEvent}
    (hrun : Run (AesdsocketStep fsl client) (.start dev slhFirst localData) ls t) :
    t.clients.released = [] ∧ (t.clients.acquired = 0 ↔ acceptEvent ∉ ls) := by
  refine hrun.invariant_labels
    (I := fun ls t => t.clients.released = [] ∧ (t.clients.acquired = 0 ↔ acceptEvent ∉ ls))
    ⟨rfl, by simp [Aesdsocket.start, Ledger.empty]⟩ ?_
  rintro ls t l u - ⟨hreleased, hacquired⟩ hstep
  rcases clients_step hstep with ⟨rfl, hu⟩ | ⟨hl, hu⟩
  · rw [hu]
    exact ⟨hreleased, by simp⟩
  · rw [hu, List.mem_append, List.mem_singleton, not_or]
    exact ⟨hreleased, hacquired.trans (and_iff_left (Ne.symm hl)).symm⟩

/-- **The descriptors.** In every state of every run the device descriptors are closed exactly once,
before the mutex is released. The client descriptors are closed as they should be exactly as long as
every client has its node, and in a run that accepts no connection. When `main` has returned, every
client descriptor has been closed exactly once only if no connection was accepted.

**Proof sketch.** A session that is not outside holds the mutex, so at most one device descriptor is
open, and a session leaves the mutex only after its `close`. No step closes a client descriptor. -/
theorem descriptor_lifecycle {dev : Driver} {slhFirst localData : Ptr}
    {ls : List AesdsocketEvent}
    (hrun : Run (AesdsocketStep fsl client) (.start dev slhFirst localData) ls t) :
    DevicesClosed t ∧
      (ClientsClosed t ↔ ∀ k < t.clients.acquired, t.HasNode k) ∧
      (acceptEvent ∉ ls → ClientsClosed t ∧ ClientsBounded t) ∧
      (t.main.pc = .exited → (t.clients.Settled ↔ acceptEvent ∉ ls)) := by
  obtain ⟨hreleased, hacquired⟩ := clients_run hrun
  have hdevices : DevicesOk t :=
    hrun.invariant (devicesOk_start dev slhFirst localData) fun _ _ _ h hstep => h.step hstep
  have hclients := Ledger.settledBut_iff_of_released_nil hreleased t.HasNode
  refine ⟨hdevices.closed, hclients, fun hnone => ⟨hclients.mpr ?_, ?_⟩, fun _ => ?_⟩
  · intro k hk
    rw [hacquired.mpr hnone] at hk
    exact absurd hk (Nat.not_lt_zero k)
  · intro addrs _
    have hle := t.clients.outstanding_le
    rw [hacquired.mpr hnone] at hle
    omega
  · rw [Ledger.settled_iff_of_released_nil hreleased, hacquired]

/-- `main` accepts one client and walks its list; then the session receives an empty line, writes it,
sends it back and ends; then a signal ends the loop, and `main` frees the node and returns. -/
def oneClient : List AesdsocketEvent :=
  List.map AesdsocketEvent.main (firstSession ++ List.replicate 4 .next) ++
    List.map (AesdsocketEvent.session 1)
      [.malloc (some 0), .recv ⟨none, false⟩ .ok, .lock true, .openDevice true, .lseek,
        .write ⟨false, some 1, some 2, fun _ => 0, 0⟩, .lseek, .malloc (some 0),
        .read ⟨none, false⟩ ⟨false, 0⟩, .send (some 1), .malloc (some 0),
        .read ⟨none, false⟩ ⟨false, 0⟩, .closeDevice, .unlock true] ++
    List.map AesdsocketEvent.main
      ([.thread 1 .setSuccess, .thread 1 .setComplete, .thread 1 .finish, .signal, .next, .next,
        .next, .malloc none] ++ List.replicate 6 .next)

/-- At the end of the run `main` has returned, the device descriptor has been closed, and the client
descriptor is open. -/
lemma exists_oneClient :
    ∃ t, Run (AesdsocketStep fixedSizeLlseek fun _ => [10]) (.start (initialDriver 0) none none)
        oneClient t ∧
      t.main.pc = .exited ∧ t.devices = ⟨1, [0], []⟩ ∧ t.clients = ⟨1, [], []⟩ := by
  have hrun : ((oneClient.foldlM (aesdsocketStep fixedSizeLlseek fun _ => [10])
      (.start (initialDriver 0) none none)).map fun t => (t.main.pc, t.devices, t.clients)) =
        some (.exited, ⟨1, [0], []⟩, ⟨1, [], []⟩) := by
    decide +kernel
  obtain ⟨t, hfold, ht⟩ := Option.map_eq_some_iff.mp hrun
  obtain ⟨hpc, h⟩ := Prod.mk.inj ht
  obtain ⟨hdevices, hclients⟩ := Prod.mk.inj h
  exact ⟨t, Run.of_foldlM (fun _ _ _ hstep => hstep) hfold, hpc, hdevices, hclients⟩

/-- The run with one client: all is well with the device, but the client descriptor is not closed. -/
theorem descriptor_lifecycle_one_client :
    ∃ t, Run (AesdsocketStep fixedSizeLlseek fun _ => [10]) (.start (initialDriver 0) none none)
        oneClient t ∧
      t.main.pc = .exited ∧ t.devices.released = [0] ∧ DevicesClosed t ∧ ¬t.clients.Settled := by
  obtain ⟨t, hrun, hpc, hdevices, -⟩ := exists_oneClient
  obtain ⟨hclosed, -, -, hiff⟩ := descriptor_lifecycle hrun
  have haccepted : acceptEvent ∈ oneClient := by simp [oneClient, firstSession, acceptEvent]
  exact ⟨t, hrun, hpc, by rw [hdevices], hclosed, fun h => (hiff hpc).mp h haccepted⟩

/-- The descriptor of the client is still open when `main` has freed its node and returned. -/
theorem descriptor_lifecycle_fails :
    ¬∀ (client : ℕ → List Byte) (ls : List AesdsocketEvent) (t : Aesdsocket),
      Run (AesdsocketStep fixedSizeLlseek client) (.start (initialDriver 0) none none) ls t →
        t.main.pc = .exited → t.clients.Settled := by
  intro h
  obtain ⟨t, hrun, hpc, -, hclients⟩ := exists_oneClient
  have hone := h _ _ t hrun hpc 0
  rw [hclients] at hone
  exact absurd (hone (by decide)) (by decide)

end Aesd
