import Aesd.Server.Contract

set_option relaxedAutoImplicit false
set_option autoImplicit false

/-!
# When the server stops

The server goes on until every session is done, with three exceptions: a session that holds the mutex
waits for the device for good after its seek request has stuck, or its line does not fit a block
together with what is pending, or its line starts with a NUL while nothing is pending, and its write
faults. The first is the worst one. Once the mutex of the device is held between two calls, no
outcome of any system call lets a session send a byte again.

## Main definitions

* `Aesd.WaitsForDevice`, `Aesd.LineTooLong`, `Aesd.WriteFaults` — the ways in which a session stops.
* `Aesd.Stopped` — the session has stopped in one of them.
* `Aesd.Session.serveWork` — a bound on the steps a session still takes.
* `Aesd.Quiet` — the session has nothing to send.

## Main results

* `Aesd.server_progress` — the server goes on, or the session that holds the mutex has stopped.
* `Aesd.server_wedged` — nothing is written or sent once the mutex of the device stays held.
-/

namespace Aesd

open CriticalSections Transition

variable {n : ℕ} {ι : Type} {fsl : FixedSizeLlseek} {i : ι} {g g' : Shared ι} {s s' : Session}
  {e : Event} {p : ℤ} {d : LogDevice} {line : List Byte}

/-! ## Progress -/

/-- The session waits in a read for the mutex of the device, which its seek request has left held. -/
structure WaitsForDevice (line : List Byte) (g : Shared ι) (s : Session) : Prop where
  seek : ∃ seekto, parseSeekto line = some seekto
  pc_eq : ∃ st, s.pc = .read st
  lock_eq : g.dev.lock = true
  sent_eq : s.sent = []

/-- The session is about to write its line, which does not fit a block with what is pending. -/
structure LineTooLong (line : List Byte) (g : Shared ι) (s : Session) : Prop where
  pc_eq : ∃ received, s.pc = .write received
  lt_length : kmallocMaxSize < (cString line).length + g.dev.pending.length
  sent_eq : s.sent = []

/-- The session is about to write its line, of which no byte is written because it starts with a NUL,
while nothing is pending: the write faults. -/
structure WriteFaults (line : List Byte) (g : Shared ι) (s : Session) : Prop where
  pc_eq : ∃ received, s.pc = .write received
  length_eq : (cString line).length + g.dev.pending.length = 0
  sent_eq : s.sent = []

/-- The session has stopped. -/
def Stopped (line : List Byte) (g : Shared ι) (s : Session) : Prop :=
  WaitsForDevice line g s ∨ LineTooLong line g s ∨ WriteFaults line g s

/-- Whether a session has stopped depends on the device, not on the holder of the mutex. -/
lemma Stopped.of_dev_eq {κ : Type} {h : Shared κ} (hs : Stopped line g s) (hdev : h.dev = g.dev) :
    Stopped line h s := by
  rcases hs with hwaits | hlong | hfaults
  · exact .inl ⟨hwaits.seek, hwaits.pc_eq, hdev ▸ hwaits.lock_eq, hwaits.sent_eq⟩
  · exact .inr (.inl ⟨hlong.pc_eq, hdev ▸ hlong.lt_length, hlong.sent_eq⟩)
  · exact .inr (.inr ⟨hfaults.pc_eq, hdev ▸ hfaults.length_eq, hfaults.sent_eq⟩)

/-- A reply can go on until the session is done. -/
lemma Answers.enabled (fsl : FixedSizeLlseek) (i : ι) {q : List AesdBufferEntry}
    (hI : Inv g.dev q []) (hlock : g.dev.lock = false) (h0 : 0 ≤ p) (hlt : p < 2 ^ 63)
    (hs : Answers (g.dev.bytesFrom p) p s) (hnot : s.pc ≠ .done) : Enabled fsl i g s := by
  obtain ⟨pc, left, fPos, flag, sent, ok, complete⟩ := s
  cases pc with
  | callRead => exact ⟨.malloc (some 0), rfl, rfl⟩
  | read st =>
    obtain ⟨-, ps, tail, hsent, -⟩ := hs
    refine ⟨.read grown ⟨false, 0⟩, ⟨rfl, rfl, rfl⟩, ?_⟩
    simp only [sessionStep]
    cases rutGrow grown st with
    | none => rfl
    | some st₁ =>
      have hint : (⟨false, 0⟩ : ReadEnv).interrupted = false := rfl
      have hread := hsent.read_of_inv hI hlock h0 hlt hint rfl
      rw [Option.isSome_map]
      exact Option.isSome_iff_exists.mpr ⟨_, hread⟩
  | send line => exact ⟨.send (some (cString line.bytes).length), rfl, rfl⟩
  | closeDevice => exact ⟨.closeDevice, trivial, rfl⟩
  | unlock => exact ⟨.unlock true, rfl, rfl⟩
  | done => exact absurd rfl hnot
  | _ => exact hs.elim

/-- The VFS cuts the buffer of a write. -/
lemma length_userBuf (bs : List Byte) : (userBuf bs).bytes.length = min maxRwCount bs.length :=
  List.length_take

/-- A line that fits a block with what is pending can be written, unless there is nothing to
write. -/
lemma enabled_write (fsl : FixedSizeLlseek) (i : ι) {received : Line} (hdev : Shows g.dev d)
    (hlock : d.locked = false) (hpc : s.pc = .write received) (hpos : s.fPos = some p)
    (hne : (cString received.bytes).length + g.dev.pending.length ≠ 0)
    (hfits : (cString received.bytes).length + g.dev.pending.length ≤ kmallocMaxSize) :
    Enabled fsl i g s := by
  obtain ⟨q, hI⟩ := hdev.inv
  have hcut : kmallocMaxSize < maxRwCount := by decide
  have hlen := length_userBuf (cString received.bytes)
  obtain ⟨env, ha, -, huncopied⟩ := exists_allocates hI (userBuf (cString received.bytes))
    (fun _ => 0) 0 (by omega)
  obtain ⟨_, dev', -, hwrite, -⟩ :=
    aesdWrite_of_allocates p hI (hdev.lock_eq.trans hlock) ha (by omega)
  refine ⟨.write env, ?_, ?_⟩
  · simp only [Event.Succeeds, hpc]
    exact ⟨ha, huncopied⟩
  · simp only [sessionStep, hpc, hpos, Option.isSome_map]
    exact Option.isSome_iff_exists.mpr ⟨_, hwrite⟩

/-- A line that does not fit a block, or of which there is nothing to write, cannot be written. -/
lemma not_enabled_write (fsl : FixedSizeLlseek) (i : ι) {received : Line} (hdev : Shows g.dev d)
    (hpc : s.pc = .write received) (hpos : s.fPos = some p)
    (hno : kmallocMaxSize < (cString received.bytes).length + g.dev.pending.length ∨
      (cString received.bytes).length + g.dev.pending.length = 0) : ¬Enabled fsl i g s := by
  rintro ⟨e, he, hsome⟩
  obtain ⟨⟨g', s'⟩, h⟩ := Option.isSome_iff_exists.mp hsome
  obtain ⟨q, hI⟩ := hdev.inv
  have hcut : kmallocMaxSize < maxRwCount := by decide
  have hlen := length_userBuf (cString received.bytes)
  cases sessionStep_move h with
  | writeClosed hmove hclosed => exact absurd (hpos.symm.trans hclosed) (by simp)
  | @write received' env p' reply dev hmove hopen hwrite =>
    rw [hpc] at hmove
    injection hmove with hsame
    subst hsame
    simp only [Event.Succeeds, hpc] at he
    obtain ⟨found, hd⟩ := writeDone_of_allocates hI he.1 hwrite
    have hne := (scanBlock_eq_some.mp hd.found_eq).1
    have hfits := he.1.size_le
    omega
  | _ hother => exact absurd (hpc.symm.trans hother) (by simp)

/-- A seek request can be made. -/
lemma enabled_ioctl (fsl : FixedSizeLlseek) (i : ι) {seekto : AesdSeekto} (hdev : Shows g.dev d)
    (hlock : d.locked = false) (hpc : s.pc = .ioctl seekto) (hpos : s.fPos = some p) :
    Enabled fsl i g s := by
  refine ⟨.ioctl false true, ⟨rfl, rfl⟩, ?_⟩
  have hret := aesdIoctl_seekto fsl g.dev p ⟨false, some seekto⟩ rfl
  rw [hdev.adjust (hdev.lock_eq.trans hlock) p _ seekto.writeCmdOffset.toNat_lt] at hret
  simp only [sessionStep, hpc, hpos, Option.isSome_map, if_pos, hret]
  cases d.seekTo seekto.writeCmd.toNat seekto.writeCmdOffset.toNat <;> rfl

/-- **A session in its critical section can go on** until it is done, or has stopped. -/
lemma Serving.enabled (fsl : FixedSizeLlseek) (hs : Serving d line i g s) (hlock : d.locked = false)
    (hnot : s.pc ≠ .done) : Enabled fsl i g s ∨ (Stopped line g s ∧ ¬Enabled fsl i g s) := by
  cases hs with
  | opening hpc => exact .inl ⟨.openDevice true, rfl, by simp [sessionStep, hpc]⟩
  | @writing received hpc hline hseek hpos hmutex hdev hsent =>
    rcases hpc with hpc | hpc
    · exact .inl ⟨.lseek, trivial, by simp [sessionStep, hpc]⟩
    · subst hline
      by_cases hempty : (cString received.bytes).length + g.dev.pending.length = 0
      · exact .inr ⟨.inr (.inr ⟨⟨_, hpc⟩, hempty, hsent⟩),
          not_enabled_write fsl i hdev hpc hpos (.inr hempty)⟩
      · rcases Nat.lt_or_ge kmallocMaxSize
          ((cString received.bytes).length + g.dev.pending.length) with hlong | hfits
        · exact .inr ⟨.inr (.inl ⟨⟨_, hpc⟩, hlong, hsent⟩),
            not_enabled_write fsl i hdev hpc hpos (.inl hlong)⟩
        · exact .inl (enabled_write fsl i hdev hlock hpc hpos hempty hfits)
  | seeking hpc hseek hpos hmutex hdev hsent => exact .inl (enabled_ioctl fsl i hdev hlock hpc hpos)
  | written hpc => exact .inl ⟨.lseek, trivial, by simp [sessionStep, hpc]⟩
  | @replying d' pos htakes hdev hans =>
    obtain ⟨⟨q, hI⟩, hfree, hlt, hrest⟩ := htakes.readable hdev hlock
    exact .inl ((hrest ▸ hans).enabled fsl i hI hfree (Int.natCast_nonneg pos) hlt hnot)
  | stuck hsticks hheld hpc hpos hmutex hsent =>
    rcases hpc with hpc | ⟨st, hpc, hnil, hst⟩
    · exact .inl ⟨.malloc (some 0), rfl, by simp [sessionStep, hpc]⟩
    · obtain ⟨seekto, hseek, -⟩ := hsticks
      refine .inr ⟨.inl ⟨⟨seekto, hseek⟩, ⟨st, hpc⟩, hheld, hsent⟩, ?_⟩
      rintro ⟨e, he, hsome⟩
      obtain ⟨⟨g', s'⟩, h⟩ := Option.isSome_iff_exists.mp hsome
      exact Serving.not_step_of_lock hpc hnil hst hheld hpos he h

/-- A session before its critical section can go on while the mutex is free. -/
lemma enabled_of_before (fsl : FixedSizeLlseek) (i : ι) (hphase : s.pc.phase = .before)
    (hfree : g.mutex = none) : Enabled fsl i g s := by
  cases hpc : s.pc with
  | callRecv => exact ⟨.malloc (some 0), rfl, by simp [sessionStep, hpc]⟩
  | recv st =>
    refine ⟨.recv grown .ok, ⟨rfl, rfl⟩, ?_⟩
    simp only [sessionStep, hpc]
    cases rutGrow grown st <;> rfl
  | takeMutex received => exact ⟨.lock true, rfl, by simp [sessionStep, hpc, hfree]⟩
  | _ => exact absurd hphase (by simp [hpc, Pc.phase])

/-! ## Work -/

/-- The most bytes a device holds. -/
def maxHeld : ℕ := 10 * kmallocMaxSize

/-- A bound on the number of steps a session still takes. -/
def Session.serveWork (s : Session) : ℕ :=
  match s.pc with
  | .callRecv => s.client.length + (3 * maxHeld + 12)
  | .recv _ => s.client.length + (3 * maxHeld + 11)
  | .takeMutex _ => 3 * maxHeld + 10
  | .openDevice _ => 3 * maxHeld + 9
  | .seekWrite _ => 3 * maxHeld + 8
  | .write _ => 3 * maxHeld + 7
  | .seekRead | .ioctl _ => 3 * maxHeld + 6
  | _ => s.replyWork maxHeld

/-- A step before the critical section makes the work smaller. -/
lemma serveWork_of_before (he : e.Succeeds g.dev s.pc) (hphase : s.pc.phase = .before)
    (h : sessionStep fsl i g s e = some (g', s')) : s'.serveWork < s.serveWork := by
  have hreturned : ∀ (s : Session) (line : Option Line) (flag : ℤ),
      (s.afterRecv (.returned line flag)).serveWork < 3 * maxHeld + 11 := by
    intro s line flag
    cases line with
    | none => exact Nat.succ_pos _
    | some line => exact Nat.lt_succ_self _
  cases sessionStep_move h with
  | @callRecv choice hpc =>
    obtain ⟨st, hret, -⟩ := exists_reading s.flag he
    rw [hret]
    simp only [Session.afterRecv, Session.serveWork, hpc]
    omega
  | recvFull hpc hgrow =>
    have hlt := hreturned s none 2
    simp only [Session.serveWork, hpc] at hlt ⊢
    omega
  | @recv st st₁ env outcome hpc hgrow =>
    obtain ⟨-, rfl⟩ := he
    have hwork : s.serveWork = s.client.length + (3 * maxHeld + 11) := by
      simp only [Session.serveWork, hpc]
    rw [hwork]
    cases hleft : s.client with
    | nil =>
      have heof : ∃ line flag, rutConsume newline env .eof st₁ = .returned line flag := by
        rw [rutConsume]
        split_ifs
        · exact ⟨_, _, rfl⟩
        · exact ⟨_, _, rfl⟩
      obtain ⟨line, flag, hret⟩ := heof
      have hlt := hreturned { s with client := [] } line flag
      simp only [clientRead, hret]
      omega
    | cons c left =>
      simp only [clientRead]
      cases hret : rutConsume newline env (.byte c) st₁ with
      | running st₂ =>
        simp only [Session.afterRecv, Session.serveWork, List.length_cons]
        omega
      | returned line flag =>
        have hlt := hreturned { s with client := left } line flag
        omega
  | lock hpc hfree =>
    simp only [Session.serveWork, hpc]
    omega
  | lockFailed hpc => exact absurd he (by simp [Event.Succeeds])
  | _ hpc => exact absurd hphase (by simp [Pc.phase, hpc])

/-- A complete read of one byte is at a position within what the device can hold. -/
lemma deviceRead_pos {dev : Driver} {q : List AesdBufferEntry} (hI : Inv dev q [])
    (hlock : dev.lock = false) (h0 : 0 ≤ p) (hlt : p < 2 ^ 63) {env : ReadEnv}
    (hint : env.interrupted = false) (huncopied : env.uncopied = 0) {r : ReadResult}
    {fPos : Option ℤ} (h : deviceRead dev (some p) env = some (r, fPos)) :
    r = .eof ∨ ∃ c, r = .byte c ∧ fPos = some (p + 1) ∧ p.toNat < maxHeld := by
  have hread := hI.deviceRead hlock h0 hlt hint huncopied
  rw [h] at hread
  cases hback : dev.commands.flatten.drop p.toNat with
  | nil =>
    rw [hback] at hread
    obtain ⟨rfl, -⟩ := Prod.mk.inj (Option.some.inj hread)
    exact .inl rfl
  | cons c back =>
    rw [hback] at hread
    obtain ⟨rfl, rfl⟩ := Prod.mk.inj (Option.some.inj hread)
    have hlen := congrArg List.length hback
    have hsum := hI.sum_size_le
    rw [List.length_drop, List.length_cons, List.length_flatten, hI.map_length_commands] at hlen
    refine .inr ⟨c, rfl, rfl, ?_⟩
    rw [maxHeld]
    omega

/-- **An iteration of the reply loop** makes the work smaller. -/
lemma serveWork_of_read {st st₁ : RutState} {env : IterEnv} {r : ReadResult} {fPos : Option ℤ}
    (hpc : s.pc = .read st) (hpos : s.fPos = some p) (h0 : 0 ≤ p)
    (hr : r = .eof ∨ ∃ c, r = .byte c ∧ fPos = some (p + 1) ∧ p.toNat < maxHeld) :
    ({ s with fPos }.afterRead (rutConsume newline env r st₁)).serveWork < s.serveWork := by
  have hwork : s.serveWork = 3 * (maxHeld - p.toNat) + 4 := by
    simp only [Session.serveWork, Session.replyWork, hpc, hpos, Option.getD_some]
  -- the session sends the line, or closes the device
  have hreturned : ∀ line flag,
      ({ s with fPos }.afterRead (.returned line flag)).serveWork ≤
        max 2 (3 * (maxHeld - (fPos.getD 0).toNat) + 6) := by
    intro line flag
    simp only [Session.afterRead]
    split_ifs
    · exact Nat.le_max_left _ _
    · cases line with
      | none => exact Nat.le_max_left _ _
      | some line => exact Nat.le_max_right _ _
    · exact Nat.le_max_left _ _
  rw [hwork]
  rcases hr with rfl | ⟨c, rfl, rfl, hlt⟩
  · have heof : ∃ line flag, (flag = 4 ∨ flag = 5) ∧
        rutConsume newline env .eof st₁ = .returned line flag := by
      rw [rutConsume]
      split_ifs
      · exact ⟨_, _, .inl rfl, rfl⟩
      · exact ⟨_, _, .inr rfl, rfl⟩
    obtain ⟨line, flag, hflag, hret⟩ := heof
    rw [hret]
    simp only [Session.afterRead, if_pos hflag.symm]
    exact Nat.lt_of_lt_of_le (by decide : 2 < 4) (Nat.le_add_left _ _)
  · have hnext : (p + 1).toNat = p.toNat + 1 := by omega
    cases hret : rutConsume newline env (.byte c) st₁ with
    | running st₂ =>
      simp only [Session.afterRead, Session.serveWork, Session.replyWork, Option.getD_some, hnext]
      omega
    | returned line flag =>
      have hle := hreturned line flag
      rw [Option.getD_some, hnext] at hle
      omega

/-- A step of the reply loop makes the work smaller. -/
lemma Answers.serveWork_lt {q : List AesdBufferEntry} (hI : Inv g.dev q [])
    (hlock : g.dev.lock = false) (h0 : 0 ≤ p) (hlt : p < 2 ^ 63)
    (hs : Answers (g.dev.bytesFrom p) p s) (he : e.Succeeds g.dev s.pc)
    (h : sessionStep fsl i g s e = some (g', s')) : s'.serveWork < s.serveWork := by
  cases sessionStep_move h with
  | @callRead choice hpc =>
    obtain ⟨st, hret, -⟩ := exists_reading s.flag he
    rw [hret]
    simp only [Session.afterRead, Session.serveWork, Session.replyWork, hpc]
    omega
  | @readFull st env readEnv hpc hgrow =>
    have hwork : (s.afterRead (.returned none 2)).serveWork = 2 := rfl
    rw [hwork]
    simp only [Session.serveWork, Session.replyWork, hpc]
    omega
  | @read st st₁ env readEnv r fPos hpc hgrow hread =>
    simp only [Answers, hpc] at hs
    obtain ⟨-, ps, tail, hsent, -⟩ := hs
    have hbound := hI.length_flatten_lt
    have hlen := hsent.length_eq
    rw [Driver.bytesFrom, List.length_drop] at hlen
    rw [hsent.fPos_eq] at hread
    exact serveWork_of_read hpc hsent.fPos_eq (by omega)
      (deviceRead_pos hI hlock (by omega) (by omega) he.2.1 he.2.2 hread)
  | send hpc | closeDevice hpc | unlock hpc =>
    simp only [Session.serveWork, Session.replyWork, hpc]
    omega
  | unlockFailed hpc => exact absurd he (by simp [Event.Succeeds])
  | _ hpc => simp only [Answers, hpc] at hs

/-- **A step of the critical section** makes the work smaller. -/
lemma Serving.serveWork_lt (hs : Serving d line i g s) (hlock : d.locked = false)
    (he : e.Succeeds g.dev s.pc) (h : sessionStep fsl i g s e = some (g', s')) :
    s'.serveWork < s.serveWork := by
  cases hs with
  | opening hpc =>
    cases sessionStep_move h with
    | @openDevice opened ok =>
      simp only [Session.serveWork, afterOpen, hpc]
      cases parseSeekto opened.bytes with
      | none => exact Nat.lt_succ_self _
      | some seekto => exact Nat.lt_add_of_pos_right (by decide : 0 < 3)
    | _ hother => exact absurd (hpc.symm.trans hother) (by simp)
  | writing hpc =>
    rcases hpc with hpc | hpc
    · cases sessionStep_move h with
      | seekWrite =>
        simp only [Session.serveWork, hpc]
        omega
      | _ hother => exact absurd (hpc.symm.trans hother) (by simp)
    · cases sessionStep_move h with
      | writeClosed | write =>
        simp only [Session.serveWork, hpc]
        omega
      | _ hother => exact absurd (hpc.symm.trans hother) (by simp)
  | seeking hpc =>
    cases sessionStep_move h with
    | ioctlClosed | ioctl =>
      simp only [Session.serveWork, Session.replyWork, hpc]
      omega
    | _ hother => exact absurd (hpc.symm.trans hother) (by simp)
  | written hpc =>
    cases sessionStep_move h with
    | seekRead =>
      simp only [Session.serveWork, Session.replyWork, hpc]
      omega
    | _ hother => exact absurd (hpc.symm.trans hother) (by simp)
  | @replying d' pos htakes hdev hans =>
    obtain ⟨⟨q, hI⟩, hfree, hlt, hrest⟩ := htakes.readable hdev hlock
    exact (hrest ▸ hans).serveWork_lt hI hfree (Int.natCast_nonneg pos) hlt he h
  | stuck hsticks hheld hpc hpos =>
    rcases hpc with hpc | ⟨st, hpc, hnil, hst⟩
    · cases sessionStep_move h with
      | @callRead choice =>
        obtain ⟨st, hret, -⟩ := exists_reading s.flag he
        rw [hret]
        simp only [Session.afterRead, Session.serveWork, Session.replyWork, hpc]
        omega
      | _ hother => exact absurd (hpc.symm.trans hother) (by simp)
    · exact absurd h (not_step_of_lock hpc hnil hst hheld hpos he)

/-- **A step of the server** makes the work of its session smaller. -/
lemma Served.serveWork_lt {client : Fin n → List Byte} {ls : List (Fin n × Event)} {t : Server n}
    {finished rest : List (Fin n)} {d' : LogDevice} {j : Fin n} {u : Shared (Fin n)}
    (h : Served client d ls t finished rest d') (he : e.Succeeds t.shared.dev (t.sess j).pc)
    (hstep : sessionStep fsl j t.shared (t.sess j) e = some (u, s')) :
    s'.serveWork < (t.sess j).serveWork := by
  by_cases hmem : j ∈ lockOrder ls
  · rw [h.order_eq, List.mem_append] at hmem
    rcases hmem with hdone | hmem
    · exact absurd hstep (by simp [sessionStep, h.done j hdone])
    · exact (h.serving j hmem).2.serveWork_lt h.locked_eq he hstep
  · have hinside := (h.waiting j hmem).2
    have hbefore : (t.sess j).pc.phase = .before := by
      cases hphase : (t.sess j).pc.phase with
      | before => rfl
      | inside => exact absurd hphase hinside
      | after => exact absurd hphase (sessionStep_after hstep)
    exact serveWork_of_before he hbefore hstep

/-- Less work of one session is less work of all of them. -/
lemma sum_serveWork_lt {sess : Fin n → Session} {j : Fin n} (h : s.serveWork < (sess j).serveWork) :
    ∑ i, (Function.update sess j s i).serveWork < ∑ i, (sess i).serveWork := by
  refine Finset.sum_lt_sum (fun k _ => ?_) ⟨j, Finset.mem_univ _, ?_⟩
  · rcases eq_or_ne k j with rfl | hk
    · rw [Function.update_self]
      exact h.le
    · rw [Function.update_of_ne hk]
  · rw [Function.update_self]
    exact h

/-- **A run of the server** is not longer than the work at its start. -/
lemma length_le_serveWork {dev : Driver} (hdev : Shows dev d) (hlock : d.locked = false)
    {client : Fin n → List Byte} {ls : List (Fin n × Event)} {t : Server n}
    (hrun : Run (guarded Succeeds (ServerStep fsl)) (Server.start dev client) ls t) :
    ls.length + ∑ i, (t.sess i).serveWork ≤ ∑ i, ((client i).length + (3 * maxHeld + 12)) := by
  refine hrun.invariant_labels (I := fun ls t => ls.length + ∑ i, (t.sess i).serveWork ≤
    ∑ i, ((client i).length + (3 * maxHeld + 12))) (le_of_eq (Nat.zero_add _)) ?_
  intro ls t l u hrun ih hstep
  obtain ⟨finished, rest, d', hserved⟩ := exists_served hdev hlock hrun
  obtain ⟨he, g, s, hsession, rfl⟩ := hstep
  have hlt := hserved.serveWork_lt he hsession
  have hsum := sum_serveWork_lt hlt
  rw [List.length_append, List.length_singleton]
  change ls.length + 1 + ∑ i, (Function.update t.sess l.1 s i).serveWork ≤ _
  omega

/-- **The server goes on** until every session is done, for at most as many steps as the clients
send bytes and a bound for each session, unless the session that holds the mutex has stopped: it
waits for the device after its seek request has stuck, or is about to write a line that does not fit
a block with what is pending, or one that starts with a NUL while nothing is pending. It has sent
nothing, and cannot go on.

**Proof sketch.** Every step makes the work smaller. If the mutex is free, a session that is not
done is before its critical section, and can go on. Otherwise the session that holds it is serving
its line. -/
theorem server_progress (fsl : FixedSizeLlseek) {dev : Driver} {d : LogDevice} (hdev : Shows dev d)
    (hlock : d.locked = false) {client : Fin n → List Byte} {ls : List (Fin n × Event)}
    {t : Server n} (hrun : Run (guarded Succeeds (ServerStep fsl)) (Server.start dev client) ls t) :
    ls.length ≤ ∑ i, ((client i).length + (3 * maxHeld + 12)) ∧
      ((∃ i, (t.sess i).pc ≠ .done) → (∃ l u, guarded Succeeds (ServerStep fsl) t l u) ∨
        ∃ j, t.shared.mutex = some j ∧ Stopped (lineOf (client j)) t.shared (t.sess j) ∧
          ¬Enabled fsl j t.shared (t.sess j)) := by
  refine ⟨(Nat.le_add_right _ _).trans (length_le_serveWork hdev hlock hrun), fun ⟨i, hi⟩ => ?_⟩
  have hstep : ∀ j, Enabled fsl j t.shared (t.sess j) →
      ∃ l u, guarded Succeeds (ServerStep fsl) t l u := by
    intro j ⟨e, he, hsome⟩
    obtain ⟨⟨g, s⟩, hg⟩ := Option.isSome_iff_exists.mp hsome
    exact ⟨(j, e), _, he, g, s, hg, rfl⟩
  obtain ⟨finished, rest, d', h⟩ := exists_served hdev hlock hrun
  cases hrest : rest with
  | nil =>
    have hmem : i ∉ lockOrder ls := by
      rw [h.order_eq, hrest, List.append_nil]
      exact fun hmem => hi (h.done i hmem)
    have hbefore : (t.sess i).pc.phase = .before := by
      have hinside := (h.waiting i hmem).2
      cases hpc : (t.sess i).pc with
      | callRecv | recv | takeMutex => rfl
      | done => exact absurd hpc hi
      | _ => simp [hpc, Pc.phase] at hinside
    exact .inl (hstep i (enabled_of_before fsl i hbefore (h.related hrest).mutex_eq))
  | cons j rest' =>
    obtain ⟨hmutex, hserving⟩ := h.serving j (hrest ▸ List.mem_cons_self)
    have hnot := (hserving.mutex_eq (by simp [hmutex])).2
    rcases hserving.enabled fsl h.locked_eq hnot with henabled | hstopped
    · exact .inl (hstep j henabled)
    · exact .inr ⟨j, hmutex, hstopped⟩

/-- Two sessions that receive a line each; the first is served, and the second has written its line
and read the first line of its reply. -/
def oneServed {n : ℕ} (i j : Fin n) : List (Fin n × Event) := (twoServed i j).take 27

/-- The line of the first is `"a\n"`, that of the second `"b\n"`: the first is done, and the second,
which holds the mutex, can go on. -/
theorem server_progress_two_sessions :
    ∃ t, Run (guarded Succeeds (ServerStep fixedSizeLlseek))
        (Server.start (initialDriver 0) fun i : Fin 2 => if i = 0 then [97, 10] else [98, 10])
        (oneServed 0 1) t ∧
      (t.sess 0).sent = [97, 10] ∧ t.shared.mutex = some 1 ∧ (t.sess 1).sent = [] ∧
      ∃ l u, guarded Succeeds (ServerStep fixedSizeLlseek) t l u := by
  have hfold : ((oneServed 0 1).foldlM (succeedingStep fixedSizeLlseek)
      (.start (initialDriver 0) fun i : Fin 2 => if i = 0 then [97, 10] else [98, 10])).map
      (fun t => ((t.sess 0).sent, t.shared.mutex, (t.sess 1).sent, (t.sess 1).pc.isDone,
          (succeedingStep fixedSizeLlseek t (1, .send (some 2))).isSome)) =
      some ([97, 10], some 1, [], false, true) := by
    decide +kernel
  obtain ⟨t, ht, hseen⟩ := Option.map_eq_some_iff.mp hfold
  simp only [Prod.mk.injEq] at hseen
  obtain ⟨hfirst, hmutex, hsecond, hdone, hsend⟩ := hseen
  have henabled : Enabled fixedSizeLlseek 1 t.shared (t.sess 1) := by
    obtain ⟨u, hu⟩ := Option.isSome_iff_exists.mp hsend
    obtain ⟨he, hu⟩ := Option.ite_none_right_eq_some.mp hu
    obtain ⟨r, hr, -⟩ := Option.map_eq_some_iff.mp hu
    exact ⟨_, he, Option.isSome_iff_exists.mpr ⟨r, hr⟩⟩
  have hrun := run_of_foldlM_succeeding ht
  have hdev : Initialised (initialDriver 0) := initialised_iff.mpr ⟨0, rfl⟩
  refine ⟨t, hrun, hfirst, hmutex, hsecond, ?_⟩
  have hnot : (t.sess 1).pc ≠ .done := fun hpc => by simp [hpc, Pc.isDone] at hdone
  obtain ⟨-, hgoes⟩ := server_progress fixedSizeLlseek hdev.shows rfl hrun
  rcases hgoes ⟨1, hnot⟩ with h | ⟨j, hj, -, hstuck⟩
  · exact h
  · obtain rfl := Option.some.inj (hj.symm.trans hmutex)
    exact absurd henabled hstuck

/-! ## The device held for good -/

/-- The session has nothing to send: it has read nothing of the device. -/
def Quiet (s : Session) : Prop :=
  match s.pc with
  | .read st => st.stored = []
  | .send line => line.bytes = []
  | _ => True

/-- A session outside its critical section has nothing to send. -/
lemma quiet_of_not_inside (h : s.pc.phase ≠ .inside) : Quiet s := by
  unfold Quiet
  split
  · next hpc => exact absurd (by simp [hpc, Pc.phase]) h
  · next hpc => exact absurd (by simp [hpc, Pc.phase]) h
  · exact trivial

/-- Growing the buffer leaves what is stored. -/
lemma rutGrow_stored {env : IterEnv} {st st₁ : RutState} (h : rutGrow env st = some st₁) :
    st₁.stored = st.stored := by
  unfold rutGrow at h
  split_ifs at h
  · obtain ⟨before, -, rfl⟩ := Option.map_eq_some_iff.mp h
    rfl
  · rw [← Option.some.inj h]

/-- A call of `read_until_term` that returns nothing. -/
lemma quiet_of_returned (s : Session) {line : Option Line} (hline : ∀ l, line = some l → l.bytes = [])
    (flag : ℤ) :
    Quiet (s.afterRead (.returned line flag)) ∧ (s.afterRead (.returned line flag)).sent = s.sent := by
  simp only [Session.afterRead]
  split_ifs
  · exact ⟨trivial, rfl⟩
  · cases line with
    | none => exact ⟨trivial, rfl⟩
    | some l => exact ⟨hline l rfl, rfl⟩
  · exact ⟨trivial, rfl⟩

/-- A call of `read_until_term` that has stored nothing and is interrupted, or fails, returns
nothing. -/
lemma quiet_afterRead {env : IterEnv} {r : ReadResult} {st : RutState} (hnil : st.stored = [])
    (hr : r = .eintr ∨ r = .error) :
    Quiet (s.afterRead (rutConsume newline env r st)) ∧
      (s.afterRead (rutConsume newline env r st)).sent = s.sent := by
  rcases hr with rfl | rfl
  · rw [rutConsume, rutTest]
    split_ifs
    · refine quiet_of_returned s (fun l hl => ?_) _
      rw [← Option.some.inj hl, hnil]
    · exact ⟨hnil, rfl⟩
  · exact quiet_of_returned s (by simp) _

/-- While the mutex of the device is held, a read of one byte is interrupted, or fails because the
device is not open. -/
lemma deviceRead_of_lock {dev : Driver} (hlock : dev.lock = true) {fPos fPos' : Option ℤ}
    {env : ReadEnv} {r : ReadResult} (h : deviceRead dev fPos env = some (r, fPos')) :
    r = .eintr ∨ r = .error := by
  cases fPos with
  | none =>
    obtain ⟨rfl, -⟩ := Prod.mk.inj (Option.some.inj h)
    exact .inr rfl
  | some p =>
    cases hint : env.interrupted with
    | true =>
      rw [deviceRead, aesdRead_of_interrupted _ _ _ hint] at h
      obtain ⟨rfl, -⟩ := Prod.mk.inj (Option.some.inj h)
      exact .inl (if_pos rfl)
    | false =>
      rw [deviceRead, aesdRead_of_lock hlock _ _ hint] at h
      exact absurd h (by simp)

/-- A session that is still receiving, or done, has nothing to send. -/
lemma quiet_afterRecv (s : Session) (o : RutOutcome) :
    Quiet (s.afterRecv o) ∧ (s.afterRecv o).sent = s.sent := by
  unfold Session.afterRecv
  split <;> exact ⟨trivial, rfl⟩

/-- **While the mutex of the device is held** no step changes the device: a write, a seek or a read
only returns when its wait for the mutex is interrupted. -/
lemma dev_of_lock (hlock : g.dev.lock = true) (h : sessionStep fsl i g s e = some (g', s')) :
    g'.dev = g.dev := by
  cases sessionStep_move h with
  | write hpc hpos hwrite =>
    rw [aesdWrite, aesdWriteWith_of_lock hlock] at hwrite
    split_ifs at hwrite
    obtain ⟨-, rfl⟩ := Prod.mk.inj (Option.some.inj hwrite)
    rfl
  | ioctl hpc hpos hioctl =>
    rcases aesdIoctl_state hioctl with rfl | ⟨hfree, -⟩
    · rfl
    · exact absurd (hlock.symm.trans hfree) (by simp)
  | _ => rfl

/-- **A step while the mutex of the device is held** sends nothing. -/
lemma Quiet.step (hs : Quiet s) (hlock : g.dev.lock = true)
    (h : sessionStep fsl i g s e = some (g', s')) : Quiet s' ∧ s'.sent = s.sent := by
  cases sessionStep_move h with
  | callRecv hpc | recvFull hpc | recv hpc => exact quiet_afterRecv _ _
  | @openDevice line ok hpc =>
    refine ⟨?_, rfl⟩
    unfold Quiet afterOpen
    cases parseSeekto line.bytes <;> exact trivial
  | @callRead choice hpc =>
    rcases rutMalloc_cases newline s.flag choice with ⟨-, hret⟩ | ⟨_, st, -, hret, hnil, -⟩ <;>
      rw [hret]
    · exact ⟨trivial, rfl⟩
    · exact ⟨hnil, rfl⟩
  | readFull hpc => exact ⟨trivial, rfl⟩
  | @read st st₁ env readEnv r fPos hpc hgrow hread =>
    simp only [Quiet, hpc] at hs
    exact quiet_afterRead ((rutGrow_stored hgrow).trans hs) (deviceRead_of_lock hlock hread)
  | @send line k hpc =>
    simp only [Quiet, hpc] at hs
    refine ⟨trivial, ?_⟩
    simp [hs, cString]
  | _ => exact ⟨trivial, rfl⟩

/-- The step that leaves the mutex of the device held is a seek of a session in its critical
section. -/
lemma inside_of_lock (h : sessionStep fsl i g s e = some (g', s')) (hfree : g.dev.lock = false)
    (hheld : g'.dev.lock = true) : s.pc.phase = .inside ∧ Quiet s' := by
  have hsame : g'.dev ≠ g.dev := fun heq => by simp [heq, hfree] at hheld
  cases sessionStep_move h with
  | ioctl hpc hpos hioctl => exact ⟨by simp [hpc, Pc.phase], trivial⟩
  | @write line env p reply dev hpc hpos hwrite => exact ⟨by simp [hpc, Pc.phase], trivial⟩
  | _ => exact absurd rfl hsame

/-- As long as the mutex of the device stays held, no session has anything to send. -/
lemma quiet_of_run {dev : Driver} (hfree : dev.lock = false) {client : Fin n → List Byte}
    {ls : List (Fin n × Event)} {t : Server n}
    (hrun : Run (ServerStep fsl) (Server.start dev client) ls t) (hlock : t.shared.dev.lock = true) :
    ∀ i, Quiet (t.sess i) := by
  have hC : ∀ (dev dev' : Driver) (pc : Pc) (e : Event), pc.phase = .before →
      (fun _ _ _ => True : Driver → Pc → Event → Prop) dev pc e → True := fun _ _ _ _ _ _ => trivial
  have hphase : ∀ i, (sessionProtocol n fsl _ hC).phase ((Server.start dev client).threads.loc i) ≠
      .inside := start_phase dev client
  revert hlock
  refine hrun.invariant_labels (I := fun _ t => t.shared.dev.lock = true → ∀ i, Quiet (t.sess i))
    (fun hlock => absurd (hfree.symm.trans hlock) (by simp)) ?_
  rintro ks v l u hks hv ⟨g, s, hstep, rfl⟩ hlock i
  have hguard : Run (guarded (Meets fun _ _ _ => True) (ServerStep fsl)) (Server.start dev client)
      ks v := hks.mono fun _ _ _ h => ⟨trivial, h⟩
  have hex := Protocol.exclusive_of_run hphase (run_threads hC hguard)
  cases hbefore : v.shared.dev.lock with
  | true =>
    rcases eq_or_ne i l.1 with rfl | hi
    · simp only [Function.update_self]
      exact ((hv hbefore l.1).step hbefore hstep).1
    · simp only [Function.update_of_ne hi]
      exact hv hbefore i
  | false =>
    obtain ⟨hinside, hquiet⟩ := inside_of_lock hstep hbefore hlock
    rcases eq_or_ne i l.1 with rfl | hi
    · simpa only [Function.update_self] using hquiet
    · simp only [Function.update_of_ne hi]
      -- the other sessions do not hold the mutex of the server
      refine quiet_of_not_inside fun hother => hi ?_
      have h1 : v.shared.mutex = some i := hex.holder_eq i hother
      have h2 : v.shared.mutex = some l.1 := hex.holder_eq l.1 hinside
      exact Option.some.inj (h1.symm.trans h2)

/-- **The device held for good.** Take any run of any number of sessions from a device whose mutex
is free, with any outcome of every system call, that comes to a state in which the mutex of the
device is held. However the run goes on, with failures and signals or without, the device stays as
it is and no session sends another byte. -/
theorem server_wedged (fsl : FixedSizeLlseek) {dev : Driver} (hfree : dev.lock = false)
    {client : Fin n → List Byte} {ls ks : List (Fin n × Event)} {t u : Server n}
    (hrun : Run (ServerStep fsl) (Server.start dev client) ls t) (hlock : t.shared.dev.lock = true)
    (hrun' : Run (ServerStep fsl) t ks u) :
    u.shared.dev = t.shared.dev ∧ ∀ i, (u.sess i).sent = (t.sess i).sent := by
  have hinv : u.shared.dev = t.shared.dev ∧
      ∀ i, Quiet (u.sess i) ∧ (u.sess i).sent = (t.sess i).sent := by
    refine hrun'.invariant (I := fun v => v.shared.dev = t.shared.dev ∧
      ∀ i, Quiet (v.sess i) ∧ (v.sess i).sent = (t.sess i).sent)
      ⟨rfl, fun i => ⟨quiet_of_run hfree hrun hlock i, rfl⟩⟩ ?_
    rintro v l w ⟨hdev, hv⟩ ⟨g, s, hstep, rfl⟩
    obtain ⟨hquiet, hsent⟩ := (hv l.1).1.step (hdev ▸ hlock) hstep
    refine ⟨(dev_of_lock (hdev ▸ hlock) hstep).trans hdev, fun i => ?_⟩
    rcases eq_or_ne i l.1 with rfl | hi
    · simp only [Function.update_self]
      exact ⟨hquiet, hsent.trans (hv l.1).2⟩
    · simp only [Function.update_of_ne hi]
      exact hv i
  exact ⟨hinv.1, fun i => (hinv.2 i).2⟩

/-- A session that receives the request to seek to byte `0` of command `0`, and makes it. -/
def seekSession : List (Fin 1 × Event) :=
  (0, .malloc (some 0)) :: List.replicate 23 (0, .recv grown .ok) ++
    [(0, .lock true), (0, .openDevice true), (0, .ioctl false true)]

/-- On a fresh device it leaves the mutex of the device held, and then its read is interrupted. -/
theorem server_wedged_seek :
    ∃ t u : Server 1, Run (ServerStep fixedSizeLlseek)
        (.start (initialDriver 0) fun _ => iocPfx ++ [58, 48, 44, 48, 10]) seekSession t ∧
      t.shared.dev.lock = true ∧
      Run (ServerStep fixedSizeLlseek) t
        [(0, .malloc (some 0)), (0, .read grown ⟨true, 0⟩)] u ∧
      u.shared.dev = t.shared.dev ∧ ∀ i, (u.sess i).sent = (t.sess i).sent := by
  have hlock : (seekSession.foldlM (serverStep fixedSizeLlseek)
      (.start (initialDriver 0) fun _ => iocPfx ++ [58, 48, 44, 48, 10])).map
        (fun t => (t.shared.dev.lock, ([(0, .malloc (some 0)), (0, .read grown ⟨true, 0⟩)] :
          List (Fin 1 × Event)).foldlM (serverStep fixedSizeLlseek) t |>.isSome)) =
      some (true, true) := by
    decide +kernel
  obtain ⟨t, ht, hboth⟩ := Option.map_eq_some_iff.mp hlock
  obtain ⟨hheld, hsome⟩ := Prod.mk.inj hboth
  obtain ⟨u, hu⟩ := Option.isSome_iff_exists.mp hsome
  exact ⟨t, u, run_of_foldlM ht, hheld, run_of_foldlM hu,
    server_wedged fixedSizeLlseek rfl (run_of_foldlM ht) hheld (run_of_foldlM hu)⟩

end Aesd
