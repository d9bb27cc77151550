import Aesd.Lib.Ledger
import Aesd.Lib.Run
import Aesd.Server.ReadCall
import Aesd.Server.Session

set_option relaxedAutoImplicit false
set_option autoImplicit false

/-!
# The line buffers of a session

In `sock_thread_func` the variable `line` holds the buffer of the received line, and then of each
line of the reply. It is freed after the write, and after each line that is sent. The buffers that
`read_until_term` has returned are followed in a ledger beside the steps of the session, which may
find the device and the mutex in any state.

A buffer is lost if the mutex cannot be taken, if the line is a seek request, and if the reply ends
with a piece without a newline; it is freed twice if a `send` is incomplete.

## Main definitions

* `Aesd.Buffers`, `Aesd.bufferStep` — the buffers, and what a step does to them.
* `Aesd.LineState`, `Aesd.LineStep` — a session with its buffers.
* `Aesd.Careful` — the steps that do not lose a buffer or free it twice.
* `Aesd.BuffersOk`, `Aesd.Spoiled` — the invariant of careful runs, and what a careless step leads to.

## Main results

* `Aesd.UsesOk.step` — no step uses a buffer that was freed.
* `Aesd.BuffersOk.step`, `Aesd.BuffersOk.careless`, `Aesd.Spoiled.step` — one step.
* `Aesd.line_buffers` — which runs free every buffer exactly once.
-/

namespace Aesd

open Transition

/-! ## The buffers -/

/-- The buffers that `read_until_term` has returned, and the one that `line` points to. -/
structure Buffers where
  ledger : Ledger
  line : Option ℕ

namespace Buffers

/-- `line = read_until_term(…)`: a new buffer, or `NULL`. -/
def assign (b : Buffers) : Option Line → Buffers
  | none => { b with line := none }
  | some _ => ⟨b.ledger.acquire, some b.ledger.acquired⟩

/-- `free(line)`. -/
def free (b : Buffers) : Buffers := { b with ledger := b.ledger.release b.line }

/-- The characters of the line are read. -/
def use (b : Buffers) : Buffers := { b with ledger := b.ledger.use b.line }

/-- After `read_until_term` on the client. -/
def afterRecv (b : Buffers) : RutOutcome → Buffers
  | .running _ => b
  | .returned none _ => (b.assign none).free
  | .returned (some line) _ => b.assign (some line)

/-- After `read_until_term` on the device: the branches for an allocation or a read that failed free
the line, the one for the end of the file and the last one do not. -/
def afterRead (b : Buffers) : RutOutcome → Buffers
  | .running _ => b
  | .returned line flag =>
    if flag = 5 ∨ flag = 4 then b.assign line
    else if flag = 1 ∨ flag = 2 ∨ flag = 3 then (b.assign line).free
    else b.assign line

end Buffers

/-- What a step of a session does to its buffers. -/
def bufferStep (dev : Driver) (s : Session) (e : Event) (b : Buffers) : Buffers :=
  match s.pc, e with
  | .callRecv, .malloc choice => b.afterRecv (rutMalloc s.flag choice)
  | .recv st, .recv env outcome =>
    match rutGrow env st with
    | none => b.afterRecv (.returned none 2)
    | some st => b.afterRecv (rutConsume newline env (clientRead s.client outcome).1 st)
  -- the line is compared with the tag and parsed before the mutex is taken
  | .takeMutex _, .lock _ => b.use
  | .write _, .write _ => b.use.free
  | .callRead, .malloc choice => b.afterRead (rutMalloc s.flag choice)
  | .read st, .read env readEnv =>
    match rutGrow env st, deviceRead dev s.fPos readEnv with
    | none, _ => b.afterRead (.returned none 2)
    | some st, some read => b.afterRead (rutConsume newline env read.1 st)
    | some _, none => b
  | .send line, .send n =>
    -- freed in the branch for an incomplete transmission, and again after it
    let b := if n = some (cString line.bytes).length then b.use else b.use.free
    { b.free with line := none }
  | _, _ => b

/-- A session with its buffers. -/
structure LineState where
  session : Session
  buffers : Buffers

/-- One step of the session, with any state of the device and the mutex. -/
def LineStep {ι : Type} (fsl : FixedSizeLlseek) (i : ι) (x : LineState) (l : Shared ι × Event)
    (y : LineState) : Prop :=
  (∃ g', sessionStep fsl i l.1 x.session l.2 = some (g', y.session)) ∧
    y.buffers = bufferStep l.1.dev x.session l.2 x.buffers

/-- A session that has just started. -/
def LineState.start (client : List Byte) : LineState := ⟨.start client, ⟨.empty, none⟩⟩

/-! ## Careful steps -/

/-- The read does not end a piece without a newline: it is not the end of the file after some bytes
of a piece, and not an interrupted first read that takes the byte in front of the buffer for the
newline while the flag is not yet `0`. -/
def EndsNoPiece (st : RutState) : ReadResult → Prop
  | .eof => st.stored = []
  | .eintr => st.stored ≠ [] ∨ st.before ≠ newline ∨ st.flag = 0
  | _ => True

/-- The step does not lose a buffer and does not free one twice: the mutex can be taken, the line is
no seek request, no read ends a piece without a newline, and no `send` is incomplete. -/
def Careful {ι : Type} (x : LineState) (l : Shared ι × Event) : Prop :=
  match x.session.pc, l.2 with
  | .takeMutex _, .lock ok => ok = true
  | .openDevice line, .openDevice _ => parseSeekto line.bytes = none
  | .read st, .read env readEnv =>
    rutGrow env st = none ∨
      ∀ r fPos, deviceRead l.1.dev x.session.fPos readEnv = some (r, fPos) → EndsNoPiece st r
  | .send line, .send n => n = some (cString line.bytes).length
  | _, _ => True

variable {ι : Type} {fsl : FixedSizeLlseek} {i : ι} {x y : LineState} {l : Shared ι × Event}
  {s : Session} {b : Buffers} {o : RutOutcome} {k : ℕ}

/-- Reading a line that has not been freed changes nothing. -/
lemma Buffers.use_eq (hline : b.line = some k) (hk : k ∉ b.ledger.released) : b.use = b := by
  rw [Buffers.use, hline, Ledger.use_of_not_mem hk, ← hline]

namespace Buffers

/-- A buffer that was just returned. -/
def fresh (b : Buffers) : Buffers := ⟨b.ledger.acquire, some b.ledger.acquired⟩

/-- `line` is `NULL`. -/
def cleared (b : Buffers) : Buffers := { b with line := none }

/-- The receiving call goes on, or returns `NULL`, or a line in a buffer of its own. -/
lemma afterRecv_cases (b : Buffers) (s : Session) (o : RutOutcome) :
    (∃ st, o = .running st ∧ s.afterRecv o = { s with pc := .recv st } ∧ b.afterRecv o = b) ∨
      ((s.afterRecv o).pc = .done ∧ b.afterRecv o = b.cleared) ∨
      ∃ line, (s.afterRecv o).pc = .takeMutex line ∧ b.afterRecv o = b.fresh := by
  cases o with
  | running st => exact .inl ⟨st, rfl, rfl, rfl⟩
  | returned line flag =>
    cases line with
    | none => exact .inr (.inl ⟨rfl, rfl⟩)
    | some line => exact .inr (.inr ⟨line, rfl, rfl⟩)

/-- A call of the reply goes on, or returns `NULL`, or a line to be sent, or one that is not sent,
which is freed only for the flags `1` to `3`. -/
lemma afterRead_cases (b : Buffers) (s : Session) (o : RutOutcome) :
    (∃ st, o = .running st ∧ s.afterRead o = { s with pc := .read st } ∧ b.afterRead o = b) ∨
      (∃ flag, o = .returned none flag ∧ (s.afterRead o).pc = .closeDevice ∧
        b.afterRead o = b.cleared) ∨
      (∃ line, o = .returned (some line) 0 ∧ s.afterRead o = { s with pc := .send line, flag := 0 } ∧
        b.afterRead o = b.fresh) ∨
      ∃ line flag, o = .returned (some line) flag ∧ flag ≠ 0 ∧ (s.afterRead o).pc = .closeDevice ∧
        b.afterRead o = if flag = 1 ∨ flag = 2 ∨ flag = 3 then b.fresh.free else b.fresh := by
  cases o with
  | running st => exact .inl ⟨st, rfl, rfl, rfl⟩
  | returned line flag =>
    right
    cases line with
    | none =>
      refine .inl ⟨flag, rfl, ?_, ?_⟩
      · simp only [Session.afterRead]
        split_ifs <;> rfl
      · simp only [Buffers.afterRead]
        split_ifs <;> rfl
    | some line =>
      right
      by_cases hflag : flag = 0
      · subst hflag
        exact .inl ⟨line, rfl, rfl, rfl⟩
      · refine .inr ⟨line, flag, rfl, hflag, ?_, ?_⟩
        · simp only [Session.afterRead, if_neg hflag]
          split_ifs <;> rfl
        · simp only [Buffers.afterRead]
          by_cases hend : flag = 5 ∨ flag = 4
          · rw [if_pos hend, if_neg (by omega)]
            rfl
          · rw [if_neg hend]
            rfl

end Buffers

/-! ## Uses -/

/-- The line is needed at this place. -/
def Pc.NeedsLine : Pc → Prop
  | .takeMutex _ | .openDevice _ | .seekWrite _ | .write _ | .send _ => True
  | _ => False

/-- No buffer has been used after it was freed, and what has been freed, and the line, had been
returned before. -/
structure Buffers.Sound (b : Buffers) : Prop where
  misused_eq : b.ledger.misused = []
  released_lt : ∀ k ∈ b.ledger.released, k < b.ledger.acquired
  line_lt : ∀ k, b.line = some k → k < b.ledger.acquired

/-- The line has not been freed. -/
def Buffers.Live (b : Buffers) : Prop := ∃ k, b.line = some k ∧ k ∉ b.ledger.released

/-- Using a line that has not been freed changes nothing. -/
lemma Buffers.Live.use_eq (h : b.Live) : b.use = b := by
  obtain ⟨k, hline, hk⟩ := h
  rw [Buffers.use, hline, Ledger.use_of_not_mem hk, ← hline]

namespace Buffers.Sound

lemma fresh (h : b.Sound) : b.fresh.Sound where
  misused_eq := h.misused_eq
  released_lt k hk := Nat.lt_succ_of_lt (h.released_lt k hk)
  line_lt _ hk := Option.some.inj hk ▸ Nat.lt_succ_self _

/-- A buffer that was just returned has not been freed. -/
lemma live_fresh (h : b.Sound) : b.fresh.Live :=
  ⟨_, rfl, fun hmem => Nat.lt_irrefl _ (h.released_lt _ hmem)⟩

lemma cleared (h : b.Sound) : b.cleared.Sound :=
  ⟨h.misused_eq, h.released_lt, fun k hk => absurd hk (by simp [Buffers.cleared])⟩

lemma free (h : b.Sound) : b.free.Sound := by
  refine ⟨by simpa [Buffers.free] using h.misused_eq, ?_, ?_⟩
  · intro k hk
    cases hline : b.line with
    | none =>
      simp only [Buffers.free, hline, Ledger.release_none] at hk ⊢
      exact h.released_lt k hk
    | some j =>
      simp only [Buffers.free, hline, Ledger.released_release, Ledger.acquired_release] at hk ⊢
      rcases List.mem_cons.mp hk with rfl | hk
      · exact h.line_lt k hline
      · exact h.released_lt k hk
  · intro k hk
    simpa [Buffers.free] using h.line_lt k hk

end Buffers.Sound

/-- No buffer has been used after it was freed, and the line is not freed while it is needed. -/
structure UsesOk (x : LineState) : Prop where
  sound : x.buffers.Sound
  live : x.session.pc.NeedsLine → x.buffers.Live

/-- After the receiving call. -/
lemma Buffers.Sound.usesOk_afterRecv (h : b.Sound) (s : Session) (o : RutOutcome) :
    UsesOk ⟨s.afterRecv o, b.afterRecv o⟩ := by
  rcases b.afterRecv_cases s o with ⟨st, -, hs, hb⟩ | ⟨hpc, hb⟩ | ⟨line, -, hb⟩ <;> rw [hb]
  · exact ⟨h, fun hneeds => absurd hneeds (by rw [hs]; exact id)⟩
  · exact ⟨h.cleared, fun hneeds => absurd hneeds (by rw [hpc]; exact id)⟩
  · exact ⟨h.fresh, fun _ => h.live_fresh⟩

/-- After a call of the reply. -/
lemma Buffers.Sound.usesOk_afterRead (h : b.Sound) (s : Session) (o : RutOutcome) :
    UsesOk ⟨s.afterRead o, b.afterRead o⟩ := by
  rcases b.afterRead_cases s o with
    ⟨st, -, hs, hb⟩ | ⟨flag, -, hpc, hb⟩ | ⟨line, -, -, hb⟩ | ⟨line, flag, -, -, hpc, hb⟩ <;> rw [hb]
  · exact ⟨h, fun hneeds => absurd hneeds (by rw [hs]; exact id)⟩
  · exact ⟨h.cleared, fun hneeds => absurd hneeds (by rw [hpc]; exact id)⟩
  · exact ⟨h.fresh, fun _ => h.live_fresh⟩
  · refine ⟨?_, fun hneeds => absurd hneeds (by rw [hpc]; exact id)⟩
    show (if flag = 1 ∨ flag = 2 ∨ flag = 3 then b.fresh.free else b.fresh).Sound
    split_ifs
    · exact h.fresh.free
    · exact h.fresh

/-- **No step uses a buffer that was freed.** -/
lemma UsesOk.step (hx : UsesOk x) (h : LineStep fsl i x l y) : UsesOk y := by
  obtain ⟨s, b⟩ := x
  obtain ⟨s', b'⟩ := y
  obtain ⟨g, e⟩ := l
  obtain ⟨⟨g', hstep⟩, rfl⟩ := h
  obtain ⟨hsound, hlive⟩ := hx
  have hmove : SessionMove fsl i g s e g' s' := sessionStep_move hstep
  cases hmove with
  | callRecv hpc =>
    simp only [bufferStep, hpc]
    exact hsound.usesOk_afterRecv _ _
  | recvFull hpc hgrow | recv hpc hgrow =>
    simp only [bufferStep, hpc, hgrow]
    exact hsound.usesOk_afterRecv _ _
  | callRead hpc =>
    simp only [bufferStep, hpc]
    exact hsound.usesOk_afterRead _ _
  | readFull hpc hgrow =>
    simp only [bufferStep, hpc, hgrow]
    exact hsound.usesOk_afterRead _ _
  | read hpc hgrow hread =>
    simp only [bufferStep, hpc, hgrow, hread]
    exact hsound.usesOk_afterRead _ _
  | lock hpc hfree | lockFailed hpc =>
    have hlive : b.Live := hlive (by simp only [hpc, Pc.NeedsLine])
    simp only [bufferStep, hpc, hlive.use_eq]
    exact ⟨hsound, fun _ => hlive⟩
  | openDevice hpc | seekWrite hpc =>
    have hlive : b.Live := hlive (by simp only [hpc, Pc.NeedsLine])
    simp only [bufferStep, hpc]
    exact ⟨hsound, fun _ => hlive⟩
  | writeClosed hpc hpos | write hpc hpos hwrite =>
    have hlive : b.Live := hlive (by simp only [hpc, Pc.NeedsLine])
    simp only [bufferStep, hpc, hlive.use_eq]
    exact ⟨hsound.free, False.elim⟩
  | send hpc =>
    have hlive : b.Live := hlive (by simp only [hpc, Pc.NeedsLine])
    simp only [bufferStep, hpc, hlive.use_eq]
    refine ⟨?_, False.elim⟩
    split_ifs
    · exact hsound.free.cleared
    · exact hsound.free.free.cleared
  | seekRead hpc | ioctlClosed hpc hpos | ioctl hpc hpos hioctl | closeDevice hpc | unlock hpc
  | unlockFailed hpc =>
    simp only [bufferStep, hpc]
    exact ⟨hsound, False.elim⟩

/-! ## Careful runs -/

/-- Every buffer returned has been freed once, but for the line where it is needed. The flag of the
reply is `-1` or `0` until a call has read a byte. -/
def BuffersOk (x : LineState) : Prop :=
  match x.session.pc with
  | .takeMutex _ | .openDevice _ | .seekWrite _ | .write _ =>
    ∃ k, x.buffers.line = some k ∧ x.buffers.ledger.Owes [k]
  | .send _ => x.session.flag = 0 ∧ ∃ k, x.buffers.line = some k ∧ x.buffers.ledger.Owes [k]
  | .ioctl _ => False
  | .callRead => (x.session.flag = -1 ∨ x.session.flag = 0) ∧ x.buffers.ledger.Owes []
  | .read st => RutInv newline st ∧ (st.stored = [] → st.flag = -1 ∨ st.flag = 0) ∧
      x.buffers.ledger.Owes []
  | _ => x.buffers.ledger.Owes []

/-- A buffer that was returned and has not been freed. -/
def Buffers.Unfreed (b : Buffers) (k : ℕ) : Prop :=
  k < b.ledger.acquired ∧ b.ledger.released.count k = 0

/-- A buffer that was returned and has been freed twice, or has not been freed and is not the
line. -/
def Buffers.Lost (b : Buffers) (k : ℕ) : Prop :=
  k < b.ledger.acquired ∧
    (2 ≤ b.ledger.released.count k ∨ (b.ledger.released.count k = 0 ∧ b.line ≠ some k))

/-- The line is overwritten at this place before it is freed, or it is not freed any more. -/
def Pc.Overwrites : Pc → Prop
  | .ioctl _ | .callRead | .read _ | .closeDevice | .unlock | .done => True
  | _ => False

/-- A buffer has been freed twice, or will never be freed. -/
def Spoiled (x : LineState) : Prop :=
  ∃ k, x.buffers.Lost k ∨ (x.buffers.Unfreed k ∧ x.session.pc.Overwrites)

/-- The call of the reply goes on in order, or returns `NULL`, or a line with the flag `0`. -/
def RutOutcome.Sends : RutOutcome → Prop
  | .running st => RutInv newline st ∧ (st.stored = [] → st.flag = -1 ∨ st.flag = 0)
  | .returned line flag => line = none ∨ flag = 0

/-- **What a read leads to**: if it ends no piece without a newline, the call goes on or the piece is
sent; otherwise the piece is returned with another flag.

**Proof sketch.** A byte is stored or ends its piece. The end of the file returns what is stored. An
interrupted read goes on unless the byte in front of the buffer is a newline. -/
lemma rutConsume_sends {env : IterEnv} {r : ReadResult} {st st' : RutState}
    (hst : RutInv newline st) (hflag : st.stored = [] → st.flag = -1 ∨ st.flag = 0)
    (hgrow : rutGrow env st = some st') :
    (EndsNoPiece st r → (rutConsume newline env r st').Sends) ∧
      (¬EndsNoPiece st r → ∃ line flag, rutConsume newline env r st' = .returned (some line) flag ∧
        (flag = 5 ∨ flag = -1)) := by
  obtain ⟨hst', hstored, hflag', hroom, hsame, -⟩ := rutGrow_some hst hgrow
  cases r with
  | byte c =>
    refine ⟨fun _ => ?_, fun hnot => absurd trivial hnot⟩
    rcases rutConsume_byte_cases env hst' hroom c with
      ⟨-, line, hret, -⟩ | ⟨-, st'', hret, hstored'', hst''⟩ <;> rw [hret]
    · exact .inr rfl
    · exact ⟨hst'', fun hnil => absurd hnil (by simp [hstored''])⟩
  | eof =>
    rcases rutConsume_eof_cases env hst' with ⟨hnil, hret⟩ | ⟨hne, line, hret, -⟩ <;> rw [hret]
    · exact ⟨fun _ => .inl rfl, fun hnot => absurd (hstored.symm.trans hnil) hnot⟩
    · exact ⟨fun hnil => absurd (hstored.trans hnil) hne, fun _ => ⟨line, 5, rfl, .inl rfl⟩⟩
  | eintr =>
    by_cases hlast : st'.lastByte = newline
    · have hno : ¬(st'.stored ≠ [] ∨ st'.before ≠ newline) := fun h => hst'.lastByte_ne h hlast
      rw [not_or, not_not, not_not] at hno
      have hnil : st.stored = [] := hstored.symm.trans hno.1
      obtain rfl := hsame hnil
      have hfinish : rutConsume newline env .eintr st' = rutFinish env st' := if_pos hlast
      obtain ⟨line, hret, -⟩ := rutFinish_eq hst'.room hst'.cap_eq hst'.bufsize_lt
      have hconsume := hfinish.trans hret
      rw [hconsume]
      constructor
      · rintro (hne | hne | hzero)
        · exact absurd hnil hne
        · exact absurd hno.2 hne
        · exact .inr hzero
      · intro hnot
        refine ⟨line, _, rfl, .inr ((hflag hnil).resolve_right fun hzero => ?_)⟩
        exact hnot (.inr (.inr hzero))
    · have hconsume : rutConsume newline env .eintr st' = .running st' := if_neg hlast
      rw [hconsume]
      refine ⟨fun _ => ⟨hst', fun hnil => ?_⟩, fun hnot => absurd ?_ hnot⟩
      · rw [hflag']
        exact hflag (hstored.symm.trans hnil)
      · rcases eq_or_ne st.stored [] with hnil | hne
        · right; left
          intro hbefore
          obtain rfl := hsame hnil
          exact hlast (by rw [RutState.lastByte, hnil]; exact hbefore)
        · exact .inl hne
  | error => exact ⟨fun _ => .inl rfl, fun hnot => absurd trivial hnot⟩

/-- A line that is owed has not been freed. -/
lemma Buffers.live_of_owes (hline : b.line = some k) (h : b.ledger.Owes [k]) : b.Live :=
  ⟨k, hline, h.not_mem (List.mem_singleton_self k)⟩

/-- Freeing the line that is owed. -/
lemma Buffers.owes_free (hline : b.line = some k) (h : b.ledger.Owes [k]) :
    b.free.ledger.Owes [] := by
  rw [Buffers.free, hline]
  exact h.release

/-- After the receiving call. -/
lemma buffersOk_afterRecv (h : b.ledger.Owes []) (s : Session) (o : RutOutcome) :
    BuffersOk ⟨s.afterRecv o, b.afterRecv o⟩ := by
  unfold BuffersOk
  rcases b.afterRecv_cases s o with ⟨st, -, hs, hb⟩ | ⟨hpc, hb⟩ | ⟨line, hpc, hb⟩
  · simp only [hs, hb]
    exact h
  · simp only [hpc, hb]
    exact h
  · simp only [hpc, hb]
    exact ⟨_, rfl, h.acquire⟩

/-- After a call of the reply that goes on, or returns `NULL` or a line to be sent. -/
lemma RutOutcome.Sends.buffersOk (ho : o.Sends) (h : b.ledger.Owes []) (s : Session) :
    BuffersOk ⟨s.afterRead o, b.afterRead o⟩ := by
  unfold BuffersOk
  rcases b.afterRead_cases s o with
    ⟨st, rfl, hs, hb⟩ | ⟨flag, -, hpc, hb⟩ | ⟨line, -, hs, hb⟩ | ⟨line, flag, rfl, hflag, -⟩
  · simp only [hs, hb]
    exact ⟨ho.1, ho.2, h⟩
  · simp only [hpc, hb]
    exact h
  · simp only [hs, hb]
    exact ⟨trivial, _, rfl, h.acquire⟩
  · exact absurd ho (by simp [RutOutcome.Sends, hflag])

/-- A line returned with the flag `5` or `-1` is never freed. -/
lemma spoiled_afterRead (h : b.ledger.Owes []) (s : Session) {line : Line} {flag : ℤ}
    (hflag : flag = 5 ∨ flag = -1) :
    Spoiled ⟨s.afterRead (.returned (some line) flag), b.afterRead (.returned (some line) flag)⟩ := by
  have hb : b.afterRead (.returned (some line) flag) = b.fresh := by
    rcases hflag with rfl | rfl <;> rfl
  have hpc : (s.afterRead (.returned (some line) flag)).pc = .closeDevice := by
    rcases hflag with rfl | rfl <;> rfl
  refine ⟨b.ledger.acquired, .inr ⟨?_, ?_⟩⟩
  · rw [hb]
    exact h.acquire.count_held b.ledger.acquired (List.mem_singleton_self _)
  · rw [hpc]
    exact trivial

/-- **A careful step keeps the buffers in order.** -/
lemma BuffersOk.step (hx : BuffersOk x) (hc : Careful x l) (h : LineStep fsl i x l y) :
    BuffersOk y := by
  obtain ⟨s, b⟩ := x
  obtain ⟨s', b'⟩ := y
  obtain ⟨g, e⟩ := l
  obtain ⟨⟨g', hstep⟩, rfl⟩ := h
  have hmove : SessionMove fsl i g s e g' s' := sessionStep_move hstep
  cases hmove with
  | callRecv hpc =>
    simp only [BuffersOk, hpc] at hx
    simp only [bufferStep, hpc]
    exact buffersOk_afterRecv hx _ _
  | recvFull hpc hgrow | recv hpc hgrow =>
    simp only [BuffersOk, hpc] at hx
    simp only [bufferStep, hpc, hgrow]
    exact buffersOk_afterRecv hx _ _
  | lock hpc hfree =>
    simp only [BuffersOk, hpc] at hx
    obtain ⟨k, hline, howes⟩ := hx
    simp only [bufferStep, hpc, (Buffers.live_of_owes hline howes).use_eq]
    exact ⟨k, hline, howes⟩
  | lockFailed hpc =>
    simp only [Careful, hpc] at hc
    exact absurd hc (by simp)
  | openDevice hpc =>
    simp only [BuffersOk, hpc] at hx
    simp only [Careful, hpc] at hc
    simp only [bufferStep, hpc, BuffersOk, afterOpen, hc]
    exact hx
  | seekWrite hpc =>
    simp only [BuffersOk, hpc] at hx
    simp only [bufferStep, hpc]
    exact hx
  | writeClosed hpc hpos | write hpc hpos hwrite =>
    simp only [BuffersOk, hpc] at hx
    obtain ⟨k, hline, howes⟩ := hx
    simp only [bufferStep, hpc, (Buffers.live_of_owes hline howes).use_eq]
    exact Buffers.owes_free hline howes
  | seekRead hpc =>
    simp only [BuffersOk, hpc] at hx
    simp only [bufferStep, hpc]
    exact ⟨.inl rfl, hx⟩
  | ioctlClosed hpc hpos | ioctl hpc hpos hioctl => simp only [BuffersOk, hpc] at hx
  | @callRead choice hpc =>
    simp only [BuffersOk, hpc] at hx
    simp only [bufferStep, hpc]
    refine RutOutcome.Sends.buffersOk ?_ hx.2 s
    rcases rutMalloc_cases newline s.flag choice with
      ⟨-, hret⟩ | ⟨before, st, -, hret, -, -, hflag, hst⟩ <;> rw [hret]
    · exact .inl rfl
    · exact ⟨hst, fun _ => hflag.symm ▸ hx.1⟩
  | readFull hpc hgrow =>
    simp only [BuffersOk, hpc] at hx
    simp only [bufferStep, hpc, hgrow]
    have hsends : (RutOutcome.returned none 2).Sends := .inl rfl
    exact hsends.buffersOk hx.2.2 s
  | read hpc hgrow hread =>
    simp only [BuffersOk, hpc] at hx
    simp only [Careful, hpc, hgrow, reduceCtorEq, false_or] at hc
    simp only [bufferStep, hpc, hgrow, hread]
    obtain ⟨hst, hflag, howes⟩ := hx
    exact ((rutConsume_sends hst hflag hgrow).1 (hc _ _ hread)).buffersOk howes _
  | send hpc =>
    simp only [BuffersOk, hpc] at hx
    simp only [Careful, hpc] at hc
    obtain ⟨hflag, k, hline, howes⟩ := hx
    simp only [bufferStep, hpc, (Buffers.live_of_owes hline howes).use_eq, hc, if_true]
    exact ⟨.inr hflag, Buffers.owes_free hline howes⟩
  | closeDevice hpc | unlock hpc | unlockFailed hpc =>
    simp only [BuffersOk, hpc] at hx
    simp only [bufferStep, hpc]
    exact hx

/-- **A careless step loses a buffer or frees it twice.** -/
lemma BuffersOk.careless (hx : BuffersOk x) (hc : ¬Careful x l) (h : LineStep fsl i x l y) :
    Spoiled y := by
  obtain ⟨s, b⟩ := x
  obtain ⟨s', b'⟩ := y
  obtain ⟨g, e⟩ := l
  obtain ⟨⟨g', hstep⟩, rfl⟩ := h
  have hmove : SessionMove fsl i g s e g' s' := sessionStep_move hstep
  cases hmove with
  | lockFailed hpc =>
    simp only [BuffersOk, hpc] at hx
    obtain ⟨k, hline, howes⟩ := hx
    simp only [bufferStep, hpc, (Buffers.live_of_owes hline howes).use_eq]
    exact ⟨k, .inr ⟨howes.count_held k (List.mem_singleton_self k), trivial⟩⟩
  | @openDevice line ok hpc =>
    simp only [BuffersOk, hpc] at hx
    simp only [Careful, hpc] at hc
    obtain ⟨k, hline, howes⟩ := hx
    obtain ⟨seekto, hseek⟩ := Option.ne_none_iff_exists'.mp hc
    simp only [bufferStep, hpc, afterOpen, hseek]
    exact ⟨k, .inr ⟨howes.count_held k (List.mem_singleton_self k), trivial⟩⟩
  | readFull hpc hgrow => simp only [Careful, hpc, hgrow, true_or, not_true] at hc
  | @read st st' env readEnv r fPos hpc hgrow hread =>
    simp only [BuffersOk, hpc] at hx
    simp only [Careful, hpc, hread, not_or] at hc
    simp only [bufferStep, hpc, hgrow, hread]
    obtain ⟨hst, hflag, howes⟩ := hx
    have hends : ¬EndsNoPiece st r := by
      intro hends
      refine hc.2 fun r' fPos' heq => ?_
      rw [← (Prod.mk.inj (Option.some.inj heq)).1]
      exact hends
    obtain ⟨line, flag, hret, hflag⟩ := (rutConsume_sends hst hflag hgrow).2 hends
    rw [hret]
    exact spoiled_afterRead howes _ hflag
  | send hpc =>
    simp only [BuffersOk, hpc] at hx
    simp only [Careful, hpc] at hc
    obtain ⟨-, k, hline, howes⟩ := hx
    obtain ⟨hlt, hcount⟩ := howes.count_held k (List.mem_singleton_self k)
    simp only [bufferStep, hpc, (Buffers.live_of_owes hline howes).use_eq, if_neg hc]
    refine ⟨k, .inl ⟨?_, .inl ?_⟩⟩ <;> simp only [Buffers.free, hline]
    · simpa using hlt
    · simp
  | _ hpc => exact absurd (by simp only [Careful, hpc]) hc

/-! ## Spoiled runs -/

namespace Buffers

lemma Unfreed.lost_fresh (h : b.Unfreed k) : b.fresh.Lost k :=
  ⟨Nat.lt_succ_of_lt h.1, .inr ⟨h.2, fun heq => h.1.ne (Option.some.inj heq).symm⟩⟩

lemma Unfreed.lost_cleared (h : b.Unfreed k) : b.cleared.Lost k :=
  ⟨h.1, .inr ⟨h.2, by simp [cleared]⟩⟩

namespace Lost

lemma fresh (h : b.Lost k) : b.fresh.Lost k :=
  ⟨Nat.lt_succ_of_lt h.1, h.2.imp_right fun hk => ⟨hk.1, fun heq => h.1.ne (Option.some.inj heq).symm⟩⟩

lemma cleared (h : b.Lost k) : b.cleared.Lost k :=
  ⟨h.1, h.2.imp_right fun hk => ⟨hk.1, by simp [Buffers.cleared]⟩⟩

lemma use (h : b.Lost k) : b.use.Lost k := by
  simpa [Lost, Buffers.use] using h

lemma free (h : b.Lost k) : b.free.Lost k := by
  obtain ⟨hlt, hk⟩ := h
  unfold Buffers.free
  cases hline : b.line with
  | none => exact ⟨hlt, hk.imp_right fun hk => ⟨hk.1, by simp⟩⟩
  | some j =>
    refine ⟨by simpa using hlt, ?_⟩
    rw [Ledger.released_release]
    rcases hk with hk | ⟨hzero, hne⟩
    · exact .inl (hk.trans (List.count_le_count_cons))
    · have hjk : j ≠ k := fun heq => hne (heq ▸ hline)
      rw [List.count_cons_of_ne hjk]
      exact .inr ⟨hzero, by simpa using hjk⟩

lemma afterRecv (h : b.Lost k) (s : Session) (o : RutOutcome) : (b.afterRecv o).Lost k := by
  rcases b.afterRecv_cases s o with ⟨st, -, -, hb⟩ | ⟨-, hb⟩ | ⟨line, -, hb⟩ <;> rw [hb]
  · exact h
  · exact h.cleared
  · exact h.fresh

end Lost

/-- After a call of the reply, a buffer that was not freed before is lost, unless the call goes
on. -/
lemma afterRead_lost (h : b.fresh.Lost k ∧ b.cleared.Lost k) (s : Session) (o : RutOutcome) :
    (b.afterRead o).Lost k ∨ ∃ st, s.afterRead o = { s with pc := .read st } ∧ b.afterRead o = b := by
  rcases b.afterRead_cases s o with
    ⟨st, -, hs, hb⟩ | ⟨flag, -, -, hb⟩ | ⟨line, -, -, hb⟩ | ⟨line, flag, -, -, -, hb⟩
  · exact .inr ⟨st, hs, hb⟩
  all_goals
    left
    rw [hb]
  · exact h.2
  · exact h.1
  · split_ifs
    · exact h.1.free
    · exact h.1

end Buffers

/-- **A lost buffer stays lost** in every step. -/
lemma Buffers.Lost.step (h : b.Lost k) (dev : Driver) (s : Session) (e : Event) :
    (bufferStep dev s e b).Lost k := by
  have hread : ∀ o, (b.afterRead o).Lost k := by
    intro o
    rcases Buffers.afterRead_lost ⟨h.fresh, h.cleared⟩ s o with hlost | ⟨st, -, hb⟩
    · exact hlost
    · rw [hb]
      exact h
  unfold bufferStep
  split
  · exact h.afterRecv s _
  · split
    · exact h.afterRecv s _
    · exact h.afterRecv s _
  · exact h.use
  · exact h.use.free
  · exact hread _
  · split
    · exact hread _
    · exact hread _
    · exact h
  · refine Lost.cleared (Lost.free ?_)
    split_ifs
    · exact h.use
    · exact h.use.free
  · exact h

/-- **A spoiled run stays spoiled** in every step. -/
lemma Spoiled.step (hx : Spoiled x) (h : LineStep fsl i x l y) : Spoiled y := by
  obtain ⟨s, b⟩ := x
  obtain ⟨s', b'⟩ := y
  obtain ⟨g, e⟩ := l
  obtain ⟨⟨g', hstep⟩, rfl⟩ := h
  obtain ⟨k, hlost | ⟨hunfreed, hpc'⟩⟩ := hx
  · exact ⟨k, .inl (hlost.step _ _ _)⟩
  have hread : ∀ (o : RutOutcome) (s : Session), Spoiled ⟨s.afterRead o, b.afterRead o⟩ := by
    intro o s
    rcases Buffers.afterRead_lost ⟨hunfreed.lost_fresh, hunfreed.lost_cleared⟩ s o with
      hlost | ⟨st, hs, hb⟩
    · exact ⟨k, .inl hlost⟩
    · exact ⟨k, .inr ⟨hb.symm ▸ hunfreed, by rw [hs]; exact trivial⟩⟩
  have hmove : SessionMove fsl i g s e g' s' := sessionStep_move hstep
  cases hmove with
  | callRead hpc =>
    simp only [bufferStep, hpc]
    exact hread _ _
  | readFull hpc hgrow =>
    simp only [bufferStep, hpc, hgrow]
    exact hread _ _
  | read hpc hgrow hread' =>
    simp only [bufferStep, hpc, hgrow, hread']
    exact hread _ _
  | ioctlClosed hpc hpos | ioctl hpc hpos hioctl | closeDevice hpc | unlock hpc
  | unlockFailed hpc =>
    simp only [bufferStep, hpc]
    exact ⟨k, .inr ⟨hunfreed, trivial⟩⟩
  | _ hpc => simp only [hpc, Pc.Overwrites] at hpc'

/-- In a spoiled run some buffer has not been freed exactly once. -/
lemma Spoiled.not_settled (hx : Spoiled x) : ¬x.buffers.ledger.Settled := by
  intro hsettled
  obtain ⟨k, ⟨hlt, hk⟩ | ⟨⟨hlt, hk⟩, -⟩⟩ := hx
  · have hone := hsettled k hlt
    omega
  · have hone := hsettled k hlt
    omega

/-! ## Whole runs -/

/-- The runs of a session with its buffers. -/
abbrev LineRun {ι : Type} (fsl : FixedSizeLlseek) (i : ι) (client : List Byte) :
    List (Shared ι × Event) → LineState → Prop :=
  Run (LineStep fsl i) (LineState.start client)

/-- The runs of careful steps. -/
abbrev CarefulRun {ι : Type} (fsl : FixedSizeLlseek) (i : ι) (client : List Byte) :
    List (Shared ι × Event) → LineState → Prop :=
  Run (guarded Careful (LineStep fsl i)) (LineState.start client)

/-- The buffers are in order in a careful run. -/
lemma CarefulRun.buffersOk {client : List Byte} {ls : List (Shared ι × Event)}
    (h : CarefulRun fsl i client ls x) : BuffersOk x := by
  refine h.invariant (I := BuffersOk) ?_ fun x l y hx hstep => hx.step hstep.1 hstep.2
  exact Ledger.Owes.empty

/-- When the session is done in a careful run, every buffer has been freed. -/
lemma BuffersOk.settled (hx : BuffersOk x) (hpc : x.session.pc = .done) :
    x.buffers.ledger.Settled := by
  simp only [BuffersOk, hpc] at hx
  exact hx.settled

/-- A run is careful and its buffers are in order, or it is spoiled. -/
lemma careful_or_spoiled {client : List Byte} {ls : List (Shared ι × Event)}
    (h : LineRun fsl i client ls x) :
    (CarefulRun fsl i client ls x ∧ BuffersOk x) ∨ Spoiled x := by
  refine h.invariant_labels (I := fun ls x => (CarefulRun fsl i client ls x ∧ BuffersOk x) ∨ Spoiled x)
    ?_ ?_
  · exact .inl ⟨.nil, Ledger.Owes.empty⟩
  · intro ls x l y _ hx hstep
    rcases hx with ⟨hcareful, hok⟩ | hspoiled
    · by_cases hc : Careful x l
      · exact .inl ⟨hcareful.snoc ⟨hc, hstep⟩, hok.step hc hstep⟩
      · exact .inr (hok.careless hc hstep)
    · exact .inr (hspoiled.step hstep)

/-- **Ownership of the line buffers.** In every run of a session, whatever its client sends, whatever
the device holds and however each step turns out, no buffer is used after it was freed. When the
session is done, every buffer that `read_until_term` returned has been freed exactly once if and only
if all steps were careful.

**Proof sketch.** In a careful run the only buffer not yet freed is the line, and only where it is
needed. A careless step leaves a buffer that is freed twice or never, and it stays so. -/
theorem line_buffers {client : List Byte} {ls : List (Shared ι × Event)}
    (h : LineRun fsl i client ls x) :
    x.buffers.ledger.misused = [] ∧
      (x.session.pc = .done → (x.buffers.ledger.Settled ↔ CarefulRun fsl i client ls x)) := by
  constructor
  · have huses : UsesOk x := by
      refine h.invariant ⟨⟨rfl, ?_, ?_⟩, ?_⟩ fun x l y hx hstep => hx.step hstep
      · exact fun k hk => absurd hk List.not_mem_nil
      · exact fun k hk => absurd hk (by simp [LineState.start])
      · exact fun hneeds => absurd hneeds id
    exact huses.sound.misused_eq
  · intro hpc
    rcases careful_or_spoiled h with ⟨hcareful, hok⟩ | hspoiled
    · exact iff_of_true (hok.settled hpc) hcareful
    · refine iff_of_false hspoiled.not_settled fun hcareful => ?_
      exact hspoiled.not_settled ((CarefulRun.buffersOk hcareful).settled hpc)

/-- The step of a session with its buffers as a function. -/
def lineStep {ι : Type} (fsl : FixedSizeLlseek) (i : ι) (x : LineState) (l : Shared ι × Event) :
    Option LineState :=
  (sessionStep fsl i l.1 x.session l.2).map fun r =>
    ⟨r.2, bufferStep l.1.dev x.session l.2 x.buffers⟩

/-- A session that is done after these events, with the number of buffers returned and those that
were freed, if it finds the device and the mutex in the same state in each step. -/
def lineOutcome {ι : Type} (fsl : FixedSizeLlseek) (i : ι) (g : Shared ι) (client : List Byte)
    (events : List Event) : Option (ℕ × List ℕ) :=
  ((events.map (Prod.mk g)).foldlM (lineStep fsl i) (.start client)).bind fun x =>
    if x.session.pc.isDone then some (x.buffers.ledger.acquired, x.buffers.ledger.released) else none

/-- The outcome is that of a run. -/
lemma exists_lineRun {g : Shared ι} {client : List Byte} {events : List Event} {acquired : ℕ}
    {released : List ℕ} (h : lineOutcome fsl i g client events = some (acquired, released)) :
    ∃ x, LineRun fsl i client (events.map (Prod.mk g)) x ∧ x.session.pc = .done ∧
      x.buffers.ledger.acquired = acquired ∧ x.buffers.ledger.released = released := by
  obtain ⟨x, hfold, hx⟩ := Option.bind_eq_some_iff.mp h
  split_ifs at hx with hdone
  obtain ⟨hacquired, hreleased⟩ := Prod.mk.inj (Option.some.inj hx)
  refine ⟨x, Run.of_foldlM (fun y l z hstep => ?_) hfold, ?_, hacquired, hreleased⟩
  · obtain ⟨⟨g', s'⟩, hsession, rfl⟩ := Option.map_eq_some_iff.mp hstep
    exact ⟨⟨g', hsession⟩, rfl⟩
  · exact Pc.eq_done_of_isDone hdone

/-- A session receives an empty line and cannot open the device: all its steps are careful, and the
line is freed once. -/
theorem line_buffers_closed_device :
    ∃ ls x, LineRun fixedSizeLlseek (0 : Fin 1) [10] ls x ∧ x.session.pc = .done ∧
      x.buffers.ledger.acquired = 1 ∧ x.buffers.ledger.misused = [] ∧
      CarefulRun fixedSizeLlseek (0 : Fin 1) [10] ls x := by
  obtain ⟨x, hrun, hpc, hacquired, hreleased⟩ := exists_lineRun
    (show lineOutcome fixedSizeLlseek (0 : Fin 1) ⟨initialDriver 0, none⟩ [10]
      [.malloc (some 0), .recv ⟨none, false⟩ .ok, .lock true, .openDevice false, .lseek,
        .write ⟨false, none, none, fun _ => 0, 0⟩, .lseek, .malloc (some 0),
        .read ⟨none, false⟩ ⟨false, 0⟩, .closeDevice, .unlock true] = some (1, [0]) by decide +kernel)
  obtain ⟨hmisused, hiff⟩ := line_buffers hrun
  refine ⟨_, x, hrun, hpc, hacquired, hmisused, (hiff hpc).mp fun k hk => ?_⟩
  rw [hacquired, Nat.lt_one_iff] at hk
  rw [hreleased, hk]
  rfl

/-- A session receives the seek request for the values `0` and `0`: its line is never freed. -/
theorem line_buffers_fail :
    ¬∀ (client : List Byte) (ls : List (Shared (Fin 1) × Event)) (x : LineState),
      LineRun fixedSizeLlseek (0 : Fin 1) client ls x → x.session.pc = .done →
        x.buffers.ledger.Settled := by
  intro h
  obtain ⟨x, hrun, hpc, hacquired, hreleased⟩ := exists_lineRun
    (show lineOutcome fixedSizeLlseek (0 : Fin 1) ⟨initialDriver 0, none⟩
      (iocPfx ++ [58, 48, 44, 48, 10])
      ([.malloc (some 0)] ++ List.replicate 23 (.recv ⟨none, false⟩ .ok) ++
        [.lock true, .openDevice true, .ioctl false true, .malloc (some 0),
          .read ⟨none, false⟩ ⟨false, 0⟩, .closeDevice, .unlock true]) = some (1, []) by
      decide +kernel)
  have hone := h _ _ x hrun hpc 0 (by rw [hacquired]; decide)
  rw [hreleased] at hone
  exact absurd hone (by decide)

end Aesd
