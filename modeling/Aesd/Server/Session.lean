import Aesd.Driver.WriteSpec
import Aesd.Lib.Run
import Aesd.Server.ReadUntilTerm

set_option relaxedAutoImplicit false
set_option autoImplicit false

/-!
# The session threads

`sock_thread_func` of `server/include/utils.c`, built with the character device: a session receives
a line, takes the mutex, opens the device, writes the line (or seeks, if the line asks for that),
reads the device from there on line by line and sends each line to its client, closes the device
and releases the mutex. Every system call and every iteration of `read_until_term` is one step;
its outcome comes in with the step. The steps of the sessions interleave freely.

## Main definitions

* `Aesd.Pc`, `Aesd.Session` — where a session is, and its variables.
* `Aesd.sessionStep` — one step of one session, with any outcome.
* `Aesd.SessionMove` — the same step as a relation, one constructor for each branch.
* `Aesd.Server`, `Aesd.ServerStep` — all sessions with the mutex and the device.
* `Aesd.Succeeds` — the steps in which everything that may fail succeeds completely.
* `Aesd.lockOrder` — the sessions in the order in which they took the mutex.

## Main results

* `Aesd.sessionStep_move` — a step is one of the moves.
-/

namespace Aesd

open Transition

/-! ## Seek requests -/

/-- The characters of `"AESDCHAR_IOCSEEKTO"`. -/
def iocPfx : List Byte := [65, 69, 83, 68, 67, 72, 65, 82, 95, 73, 79, 67, 83, 69, 69, 75, 84, 79]

/-- The value of a `char`, which is signed as on x86. On a target on which it is unsigned, such as
aarch64, the value is `c.toNat`. -/
def charValue (c : Byte) : ℤ := if c < 128 then c.toNat else c.toNat - 256

/-- The conversion of an `int` to `uint32_t`. -/
def toUInt32 (x : ℤ) : UInt32 := UInt32.ofNat (x % 2 ^ 32).toNat

/-- The test for a seek request and its parsing: a line of 23 characters that starts with the tag,
with one character for each of the two numbers. -/
def parseSeekto (line : List Byte) : Option AesdSeekto :=
  if line.length = 23 ∧ line.take 18 = iocPfx then
    some ⟨toUInt32 (charValue (line.getD 19 0) - charValue 48),
      toUInt32 (charValue (line.getD 21 0) - charValue 48)⟩
  else none

/-! ## One session -/

/-- The place of a session in `sock_thread_func`: the next system call, or the loop of
`read_until_term` it is in. -/
inductive Pc where
  | callRecv
  | recv (st : RutState)
  | takeMutex (line : Line)
  | openDevice (line : Line)
  | seekWrite (line : Line)
  | write (line : Line)
  | seekRead
  | ioctl (seekto : AesdSeekto)
  | callRead
  | read (st : RutState)
  | send (line : Line)
  | closeDevice
  | unlock
  | done

/-- The session is done. -/
def Pc.isDone : Pc → Bool
  | .done => true
  | _ => false

/-- The only such place. -/
lemma Pc.eq_done_of_isDone {pc : Pc} (h : pc.isDone = true) : pc = .done := by
  cases pc with
  | done => rfl
  | _ => simp [isDone] at h

/-- A session: its place, the bytes its client will still send before it closes the connection,
the file position of the open device (`none` if it is not open), the flag of the last
`read_until_term`, the bytes sent to the client, and the two flags of its node.

What ends the process at once is not represented: the abort of `free` when a line is freed twice
after a short `send`, and `SIGPIPE` when the client has closed its connection. -/
structure Session where
  pc : Pc
  client : List Byte
  fPos : Option ℤ
  flag : ℤ
  sent : List Byte
  threadSuccess : Bool
  threadComplete : Bool

/-- The outcomes of a `read` from a client: the next byte or the end of the file, or a failure. -/
inductive RecvOutcome where
  | ok
  | eintr
  | error
deriving DecidableEq

/-- The outcome of the system call of a step. -/
inductive Event where
  | malloc (choice : Option Byte)
  | recv (env : IterEnv) (outcome : RecvOutcome)
  | lock (ok : Bool)
  | openDevice (ok : Bool)
  | lseek
  | write (env : WriteEnv)
  | ioctl (interrupted copied : Bool)
  | read (env : IterEnv) (readEnv : ReadEnv)
  | send (n : Option ℕ)
  | closeDevice
  | unlock (ok : Bool)

/-- A C string: the bytes before the first NUL. -/
def cString (bs : List Byte) : List Byte := bs.takeWhile (· ≠ 0)

/-- The buffer a `write` of these bytes passes to the driver. -/
def userBuf (bs : List Byte) : UserBuf := ⟨bs.take maxRwCount, by simp⟩

/-- A `read` of one byte from a client. -/
def clientRead (client : List Byte) : RecvOutcome → ReadResult × List Byte
  | .ok =>
    match client with
    | [] => (.eof, [])
    | c :: cs => (.byte c, cs)
  | .eintr => (.eintr, client)
  | .error => (.error, client)

/-- What `read` of one byte returns to the thread. -/
def readResult (reply : Reply) : ReadResult :=
  if reply.ret = -ERESTARTSYS then .eintr
  else if reply.ret < 0 then .error
  else if reply.ret = 0 then .eof
  else .byte (reply.data.headD 0)

/-- A `read` of one byte from the device, with the file position afterwards; `none` if it
blocks. -/
def deviceRead (dev : Driver) (fPos : Option ℤ) (env : ReadEnv) : Option (ReadResult × Option ℤ) :=
  match fPos with
  | none => some (.error, none)
  | some p => (aesdRead dev p 1 env).map fun r => (readResult r.1, some r.1.fPos)

/-- `lseek(fd, 0, SEEK_SET)` on the device. -/
def deviceSeek (fsl : FixedSizeLlseek) (dev : Driver) (fPos : Option ℤ) : Option ℤ :=
  fPos.map fun p => (aesdLlseek fsl dev p 0 seekSet).2

namespace Session

/-- After `read_until_term` on the client: the session ends if it returned `NULL`. -/
def afterRecv (s : Session) : RutOutcome → Session
  | .running st => { s with pc := .recv st }
  | .returned none flag => { s with pc := .done, flag, threadComplete := true }
  | .returned (some line) flag => { s with pc := .takeMutex line, flag }

/-- After `read_until_term` on the device: the reply loop sends the line if the flag is `0`, and
ends otherwise. -/
def afterRead (s : Session) : RutOutcome → Session
  | .running st => { s with pc := .read st }
  | .returned line flag =>
    if flag = 5 ∨ flag = 4 then
      { s with pc := .closeDevice, flag, threadSuccess := s.threadSuccess || line.isSome }
    else if flag = 0 then
      match line with
      | some line => { s with pc := .send line, flag }
      -- not reached: every return of `NULL` sets another flag
      | none => { s with pc := .closeDevice, flag }
    else { s with pc := .closeDevice, flag }

/-- A line with a newline is sent. -/
lemma afterRead_line (s : Session) (line : Line) :
    s.afterRead (.returned (some line) 0) = { s with pc := .send line, flag := 0 } := rfl

/-- The end of the file ends the reply. -/
lemma afterRead_eof (s : Session) :
    s.afterRead (.returned none 4) =
      { s with pc := .closeDevice, flag := 4, threadSuccess := s.threadSuccess || false } := rfl

end Session

/-- The session after opening the device: it seeks if the line is a seek request, and writes the
line otherwise. -/
def afterOpen (s : Session) (line : Line) (ok : Bool) : Session :=
  { s with
    fPos := if ok then some 0 else none
    pc := match parseSeekto line.bytes with
      | none => .seekWrite line
      | some seekto => .ioctl seekto }

/-- What the sessions share: the device and the holder of the mutex. -/
structure Shared (ι : Type) where
  dev : Driver
  mutex : Option ι

/-- One step of session `i`; `none` if the outcome is not one of the step's, or the step blocks. A
session whose `write` faults in the driver stays at the call: its thread does not come back from it,
and the mutexes stay held. -/
def sessionStep {ι : Type} (fsl : FixedSizeLlseek) (i : ι) (g : Shared ι) (s : Session) (e : Event) :
    Option (Shared ι × Session) :=
  match s.pc, e with
  | .callRecv, .malloc choice => some (g, s.afterRecv (rutMalloc s.flag choice))
  | .recv st, .recv env outcome =>
    match rutGrow env st with
    | none => some (g, s.afterRecv (.returned none 2))
    | some st =>
      let read := clientRead s.client outcome
      some (g, { s with client := read.2 }.afterRecv (rutConsume newline env read.1 st))
  | .takeMutex line, .lock ok =>
    if ok then
      if g.mutex.isNone then some ({ g with mutex := some i }, { s with pc := .openDevice line })
      else none
    else some (g, { s with pc := .done })
  | .openDevice line, .openDevice ok => some (g, afterOpen s line ok)
  | .seekWrite line, .lseek =>
    some (g, { s with pc := .write line, fPos := deviceSeek fsl g.dev s.fPos })
  | .write line, .write env =>
    match s.fPos with
    | none => some (g, { s with pc := .seekRead })
    | some p =>
      (aesdWrite g.dev p (userBuf (cString line.bytes)) env).map fun r =>
        ({ g with dev := r.2 }, { s with pc := .seekRead, fPos := some r.1.fPos })
  | .seekRead, .lseek =>
    some (g, { s with pc := .callRead, fPos := deviceSeek fsl g.dev s.fPos, flag := -1 })
  | .ioctl seekto, .ioctl interrupted copied =>
    match s.fPos with
    | none => some (g, { s with pc := .callRead, flag := -1 })
    | some p =>
      (aesdIoctl fsl g.dev p aesdcharIocseekto
        ⟨interrupted, if copied then some seekto else none⟩).map fun r =>
          ({ g with dev := r.2 }, { s with pc := .callRead, fPos := some r.1.fPos, flag := -1 })
  | .callRead, .malloc choice => some (g, s.afterRead (rutMalloc s.flag choice))
  | .read st, .read env readEnv =>
    match rutGrow env st with
    | none => some (g, s.afterRead (.returned none 2))
    | some st =>
      (deviceRead g.dev s.fPos readEnv).map fun read =>
        (g, { s with fPos := read.2 }.afterRead (rutConsume newline env read.1 st))
  | .send line, .send n =>
    some (g, { s with pc := .callRead, sent := s.sent ++ (cString line.bytes).take (n.getD 0) })
  | .closeDevice, .closeDevice => some (g, { s with pc := .unlock, fPos := none })
  | .unlock, .unlock ok =>
    if ok then
      some ({ g with mutex := none },
        { s with pc := .done, threadSuccess := true, threadComplete := true })
    else some (g, { s with pc := .done, threadComplete := true })
  | _, _ => none

/-- The moves of session `i`: each branch of a step, with the condition under which it is taken. -/
inductive SessionMove {ι : Type} (fsl : FixedSizeLlseek) (i : ι) (g : Shared ι) (s : Session) :
    Event → Shared ι → Session → Prop
  | callRecv {choice : Option Byte} (hpc : s.pc = .callRecv) :
      SessionMove fsl i g s (.malloc choice) g (s.afterRecv (rutMalloc s.flag choice))
  | recvFull {st : RutState} {env : IterEnv} {outcome : RecvOutcome} (hpc : s.pc = .recv st)
      (hgrow : rutGrow env st = none) :
      SessionMove fsl i g s (.recv env outcome) g (s.afterRecv (.returned none 2))
  | recv {st st' : RutState} {env : IterEnv} {outcome : RecvOutcome} (hpc : s.pc = .recv st)
      (hgrow : rutGrow env st = some st') :
      SessionMove fsl i g s (.recv env outcome) g
        ({ s with client := (clientRead s.client outcome).2 }.afterRecv
          (rutConsume newline env (clientRead s.client outcome).1 st'))
  | lock {line : Line} (hpc : s.pc = .takeMutex line) (hfree : g.mutex = none) :
      SessionMove fsl i g s (.lock true) { g with mutex := some i } { s with pc := .openDevice line }
  | lockFailed {line : Line} (hpc : s.pc = .takeMutex line) :
      SessionMove fsl i g s (.lock false) g { s with pc := .done }
  | openDevice {line : Line} {ok : Bool} (hpc : s.pc = .openDevice line) :
      SessionMove fsl i g s (.openDevice ok) g (afterOpen s line ok)
  | seekWrite {line : Line} (hpc : s.pc = .seekWrite line) :
      SessionMove fsl i g s .lseek g
        { s with pc := .write line, fPos := deviceSeek fsl g.dev s.fPos }
  | writeClosed {line : Line} {env : WriteEnv} (hpc : s.pc = .write line) (hpos : s.fPos = none) :
      SessionMove fsl i g s (.write env) g { s with pc := .seekRead }
  | write {line : Line} {env : WriteEnv} {p : ℤ} {reply : Reply} {dev : Driver}
      (hpc : s.pc = .write line) (hpos : s.fPos = some p)
      (hwrite : aesdWrite g.dev p (userBuf (cString line.bytes)) env = some (reply, dev)) :
      SessionMove fsl i g s (.write env) { g with dev }
        { s with pc := .seekRead, fPos := some reply.fPos }
  | seekRead (hpc : s.pc = .seekRead) :
      SessionMove fsl i g s .lseek g
        { s with pc := .callRead, fPos := deviceSeek fsl g.dev s.fPos, flag := -1 }
  | ioctlClosed {seekto : AesdSeekto} {interrupted copied : Bool} (hpc : s.pc = .ioctl seekto)
      (hpos : s.fPos = none) :
      SessionMove fsl i g s (.ioctl interrupted copied) g { s with pc := .callRead, flag := -1 }
  | ioctl {seekto : AesdSeekto} {interrupted copied : Bool} {p : ℤ} {reply : Reply} {dev : Driver}
      (hpc : s.pc = .ioctl seekto) (hpos : s.fPos = some p)
      (hioctl : aesdIoctl fsl g.dev p aesdcharIocseekto
        ⟨interrupted, if copied then some seekto else none⟩ = some (reply, dev)) :
      SessionMove fsl i g s (.ioctl interrupted copied) { g with dev }
        { s with pc := .callRead, fPos := some reply.fPos, flag := -1 }
  | callRead {choice : Option Byte} (hpc : s.pc = .callRead) :
      SessionMove fsl i g s (.malloc choice) g (s.afterRead (rutMalloc s.flag choice))
  | readFull {st : RutState} {env : IterEnv} {readEnv : ReadEnv} (hpc : s.pc = .read st)
      (hgrow : rutGrow env st = none) :
      SessionMove fsl i g s (.read env readEnv) g (s.afterRead (.returned none 2))
  | read {st st' : RutState} {env : IterEnv} {readEnv : ReadEnv} {r : ReadResult} {fPos : Option ℤ}
      (hpc : s.pc = .read st) (hgrow : rutGrow env st = some st')
      (hread : deviceRead g.dev s.fPos readEnv = some (r, fPos)) :
      SessionMove fsl i g s (.read env readEnv) g
        ({ s with fPos }.afterRead (rutConsume newline env r st'))
  | send {line : Line} {n : Option ℕ} (hpc : s.pc = .send line) :
      SessionMove fsl i g s (.send n) g
        { s with pc := .callRead, sent := s.sent ++ (cString line.bytes).take (n.getD 0) }
  | closeDevice (hpc : s.pc = .closeDevice) :
      SessionMove fsl i g s .closeDevice g { s with pc := .unlock, fPos := none }
  | unlock (hpc : s.pc = .unlock) :
      SessionMove fsl i g s (.unlock true) { g with mutex := none }
        { s with pc := .done, threadSuccess := true, threadComplete := true }
  | unlockFailed (hpc : s.pc = .unlock) :
      SessionMove fsl i g s (.unlock false) g { s with pc := .done, threadComplete := true }

/-- **A step is one of the moves.** -/
lemma sessionStep_move {ι : Type} {fsl : FixedSizeLlseek} {i : ι} {g g' : Shared ι} {s s' : Session}
    {e : Event} (h : sessionStep fsl i g s e = some (g', s')) : SessionMove fsl i g s e g' s' := by
  unfold sessionStep at h
  split at h
  case h_1 hpc =>
    obtain ⟨rfl, rfl⟩ := Prod.mk.inj (Option.some.inj h)
    exact .callRecv hpc
  case h_2 hpc =>
    split at h <;> obtain ⟨rfl, rfl⟩ := Prod.mk.inj (Option.some.inj h)
    · next hgrow => exact .recvFull hpc hgrow
    · next hgrow => exact .recv hpc hgrow
  case h_3 ok hpc =>
    split_ifs at h with hok hfree
    · obtain ⟨rfl, rfl⟩ := Prod.mk.inj (Option.some.inj h)
      rw [hok]
      exact .lock hpc (Option.isNone_iff_eq_none.mp hfree)
    · obtain ⟨rfl, rfl⟩ := Prod.mk.inj (Option.some.inj h)
      rw [Bool.eq_false_iff.mpr hok]
      exact .lockFailed hpc
  case h_4 hpc =>
    obtain ⟨rfl, rfl⟩ := Prod.mk.inj (Option.some.inj h)
    exact .openDevice hpc
  case h_5 hpc =>
    obtain ⟨rfl, rfl⟩ := Prod.mk.inj (Option.some.inj h)
    exact .seekWrite hpc
  case h_6 hpc =>
    split at h
    · next hpos =>
      obtain ⟨rfl, rfl⟩ := Prod.mk.inj (Option.some.inj h)
      exact .writeClosed hpc hpos
    · next p hpos =>
      obtain ⟨⟨reply, dev⟩, hwrite, h⟩ := Option.map_eq_some_iff.mp h
      obtain ⟨rfl, rfl⟩ := Prod.mk.inj h
      exact .write hpc hpos hwrite
  case h_7 hpc =>
    obtain ⟨rfl, rfl⟩ := Prod.mk.inj (Option.some.inj h)
    exact .seekRead hpc
  case h_8 hpc =>
    split at h
    · next hpos =>
      obtain ⟨rfl, rfl⟩ := Prod.mk.inj (Option.some.inj h)
      exact .ioctlClosed hpc hpos
    · next p hpos =>
      obtain ⟨⟨reply, dev⟩, hioctl, h⟩ := Option.map_eq_some_iff.mp h
      obtain ⟨rfl, rfl⟩ := Prod.mk.inj h
      exact .ioctl hpc hpos hioctl
  case h_9 hpc =>
    obtain ⟨rfl, rfl⟩ := Prod.mk.inj (Option.some.inj h)
    exact .callRead hpc
  case h_10 hpc =>
    split at h
    · next hgrow =>
      obtain ⟨rfl, rfl⟩ := Prod.mk.inj (Option.some.inj h)
      exact .readFull hpc hgrow
    · next hgrow =>
      obtain ⟨⟨r, fPos⟩, hread, h⟩ := Option.map_eq_some_iff.mp h
      obtain ⟨rfl, rfl⟩ := Prod.mk.inj h
      exact .read hpc hgrow hread
  case h_11 hpc =>
    obtain ⟨rfl, rfl⟩ := Prod.mk.inj (Option.some.inj h)
    exact .send hpc
  case h_12 hpc =>
    obtain ⟨rfl, rfl⟩ := Prod.mk.inj (Option.some.inj h)
    exact .closeDevice hpc
  case h_13 ok hpc =>
    split_ifs at h with hok <;> obtain ⟨rfl, rfl⟩ := Prod.mk.inj (Option.some.inj h)
    · rw [hok]
      exact .unlock hpc
    · rw [Bool.eq_false_iff.mpr hok]
      exact .unlockFailed hpc
  case h_14 => exact absurd h (by simp)

/-! ## All sessions -/

/-- The server: the shared state and the sessions. -/
structure Server (n : ℕ) where
  shared : Shared (Fin n)
  sess : Fin n → Session

/-- One step of one session. -/
def ServerStep {n : ℕ} (fsl : FixedSizeLlseek) (t : Server n) (l : Fin n × Event) (u : Server n) :
    Prop :=
  ∃ g s, sessionStep fsl l.1 t.shared (t.sess l.1) l.2 = some (g, s) ∧
    u = ⟨g, Function.update t.sess l.1 s⟩

/-- A session that has just started, whose client will send these bytes. -/
def Session.start (client : List Byte) : Session where
  pc := .callRecv
  client := client
  fPos := none
  flag := -1
  sent := []
  threadSuccess := false
  threadComplete := false

/-- The server at the start: the sessions with their clients, the mutex free. -/
def Server.start {n : ℕ} (dev : Driver) (client : Fin n → List Byte) : Server n where
  shared := ⟨dev, none⟩
  sess := fun i => .start (client i)

/-- Everything that may fail in a step succeeds completely: allocations, the lock, `open`, `read`,
`write` and `send`. -/
def Event.Succeeds (dev : Driver) (pc : Pc) : Event → Prop
  | .malloc choice => choice.isSome
  | .recv env outcome => env.grow.isSome ∧ outcome = .ok
  | .lock ok => ok = true
  | .openDevice ok => ok = true
  | .write env =>
    match pc with
    | .write line => Allocates dev (userBuf (cString line.bytes)) env ∧ env.uncopied = 0
    | _ => True
  | .ioctl interrupted copied => interrupted = false ∧ copied = true
  | .read env readEnv => env.grow.isSome ∧ readEnv.interrupted = false ∧ readEnv.uncopied = 0
  | .send n =>
    match pc with
    | .send line => n = some (cString line.bytes).length
    | _ => True
  | .unlock ok => ok = true
  | _ => True

/-- The steps in which everything succeeds. -/
def Succeeds {n : ℕ} (t : Server n) (l : Fin n × Event) : Prop :=
  l.2.Succeeds t.shared.dev (t.sess l.1).pc

instance (dev : Driver) (pc : Pc) : (e : Event) → Decidable (e.Succeeds dev pc)
  | .malloc choice => inferInstanceAs (Decidable (choice.isSome))
  | .recv env outcome => inferInstanceAs (Decidable (env.grow.isSome ∧ outcome = .ok))
  | .lock ok | .openDevice ok | .unlock ok => inferInstanceAs (Decidable (ok = true))
  | .write env =>
    match pc with
    | .write line =>
      inferInstanceAs (Decidable (Allocates dev (userBuf (cString line.bytes)) env ∧
        env.uncopied = 0))
    | .callRecv | .recv _ | .takeMutex _ | .openDevice _ | .seekWrite _ | .seekRead | .ioctl _
    | .callRead | .read _ | .send _ | .closeDevice | .unlock | .done => .isTrue trivial
  | .ioctl interrupted copied =>
    inferInstanceAs (Decidable (interrupted = false ∧ copied = true))
  | .read env readEnv =>
    inferInstanceAs (Decidable (env.grow.isSome ∧ readEnv.interrupted = false ∧
      readEnv.uncopied = 0))
  | .send n =>
    match pc with
    | .send line => inferInstanceAs (Decidable (n = some (cString line.bytes).length))
    | .callRecv | .recv _ | .takeMutex _ | .openDevice _ | .seekWrite _ | .write _ | .seekRead
    | .ioctl _ | .callRead | .read _ | .closeDevice | .unlock | .done => .isTrue trivial
  | .lseek | .closeDevice => .isTrue trivial

instance {n : ℕ} (t : Server n) (l : Fin n × Event) : Decidable (Succeeds t l) :=
  inferInstanceAs (Decidable (l.2.Succeeds t.shared.dev (t.sess l.1).pc))

/-- A step of the server as a function. -/
def serverStep {n : ℕ} (fsl : FixedSizeLlseek) (t : Server n) (l : Fin n × Event) :
    Option (Server n) :=
  (sessionStep fsl l.1 t.shared (t.sess l.1) l.2).map fun r =>
    ⟨r.1, Function.update t.sess l.1 r.2⟩

/-- A run of the function is a run. -/
lemma run_of_foldlM {n : ℕ} {fsl : FixedSizeLlseek} {t u : Server n} {ls : List (Fin n × Event)}
    (h : ls.foldlM (serverStep fsl) t = some u) : Run (ServerStep fsl) t ls u := by
  refine Run.of_foldlM (fun t l u hstep => ?_) h
  obtain ⟨⟨g, s⟩, hs, rfl⟩ := Option.map_eq_some_iff.mp hstep
  exact ⟨g, s, hs, rfl⟩

/-- A step of the server in which everything succeeds, as a function. -/
def succeedingStep {n : ℕ} (fsl : FixedSizeLlseek) (t : Server n) (l : Fin n × Event) :
    Option (Server n) :=
  if Succeeds t l then serverStep fsl t l else none

/-- A run of this function is a run in which everything succeeds. -/
lemma run_of_foldlM_succeeding {n : ℕ} {fsl : FixedSizeLlseek} {t u : Server n}
    {ls : List (Fin n × Event)} (h : ls.foldlM (succeedingStep fsl) t = some u) :
    Run (guarded Succeeds (ServerStep fsl)) t ls u := by
  refine Run.of_foldlM (fun t l u hstep => ?_) h
  obtain ⟨hl, hstep⟩ := Option.ite_none_right_eq_some.mp hstep
  obtain ⟨⟨g, s⟩, hs, rfl⟩ := Option.map_eq_some_iff.mp hstep
  exact ⟨hl, g, s, hs, rfl⟩

/-- The sessions in the order in which they took the mutex. -/
def lockOrder {n : ℕ} (ls : List (Fin n × Event)) : List (Fin n) :=
  ls.filterMap fun l =>
    match l.2 with
    | .lock true => some l.1
    | _ => none

end Aesd
