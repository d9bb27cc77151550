import Aesd.Driver.LogDevice
import Aesd.Lib.Linearization
import Aesd.Server.BufferGrowth
import Aesd.Server.Echo
import Aesd.Server.Serializability
import Aesd.Server.Transfer

set_option relaxedAutoImplicit false
set_option autoImplicit false

/-!
# What the server is for

To its clients the server is a log: a client sends a line, the line is appended to the log, and the
reply is what the log holds then. A line that parses as a seek request is not appended; the reply
starts at the position it names. Any bytes may come in: without a newline, with NULs, longer than
the largest buffer. This module states that service as operations of the abstract device, one for
each session, and shows that any interleaving of the sessions is a sequence of such operations, in
the order in which the sessions took the mutex.

## Main definitions

* `Aesd.Takes`, `Aesd.replyTo` — what the device does with a line, and the reply.
* `Aesd.ServeStep` — the service: one line and its reply.
* `Aesd.Answers` — the reply loop in the middle of a reply.
* `Aesd.Serving` — a session in its critical section.

## Main results

* `Aesd.Answers.step` — a step of the reply loop, also when a piece does not fit the largest buffer.
* `Aesd.Serving.step` — a step of the critical section.
* `Aesd.server_contract` — the sessions are linearized.
-/

namespace Aesd

open CriticalSections Transition

/-! ## The service -/

/-- What the device does with a line: it appends the line up to its first NUL, unless there is
nothing to append and nothing pending; or the line is a seek request and moves the file position, or
is refused and leaves it. The number is the position from which the reply is read. -/
inductive Takes (d : LogDevice) (line : List Byte) : LogDevice → ℕ → Prop
  | data {complete : Bool} (hline : parseSeekto line = none)
      (hne : (cString line).length + d.log.pending.length ≠ 0)
      (hsize : (cString line).length + d.log.pending.length ≤ kmallocMaxSize)
      (hcomplete : newline ∈ d.log.pending ++ cString line → complete = true) :
      Takes d line ⟨d.log.append (cString line) complete, false⟩ 0
  | moved {seekto : AesdSeekto} {pos : ℕ} (hline : parseSeekto line = some seekto)
      (hpos : d.seekTo seekto.writeCmd.toNat seekto.writeCmdOffset.toNat = .moved pos) :
      Takes d line d pos
  | refused {seekto : AesdSeekto} (hline : parseSeekto line = some seekto)
      (hout : d.seekTo seekto.writeCmd.toNat seekto.writeCmdOffset.toNat = .refused) :
      Takes d line d 0

/-- The line is a seek request that holds the mutex of the device for good. -/
def Sticks (d : LogDevice) (line : List Byte) : Prop :=
  ∃ seekto, parseSeekto line = some seekto ∧
    d.seekTo seekto.writeCmd.toNat seekto.writeCmdOffset.toNat = .stuck

/-- The reply from these bytes: the complete pieces up to the first that does not fit the largest
buffer, each up to its first NUL. -/
def replyTo (rest : List Byte) : List Byte :=
  ((((Pieces.split newline rest).takeWhile fun p => p.length < 2 ^ 30).filter
    (newline ∈ ·)).map cString).flatten

/-- The service: a line comes in, and its reply goes out. -/
def ServeStep (d : LogDevice) (l : List Byte × List Byte) (d' : LogDevice) : Prop :=
  ∃ pos, Takes d l.1 d' pos ∧ l.2 = replyTo (d'.held.flatten.drop pos)

/-- The device is free after it has taken a line. -/
lemma Takes.unlocked {d d' : LogDevice} {line : List Byte} {pos : ℕ} (h : Takes d line d' pos)
    (hd : d.locked = false) : d'.locked = false := by
  cases h with
  | data => rfl
  | moved | refused => exact hd

/-- A seek moves the file position to one within the commands held. -/
lemma LogDevice.seekTo_le {d : LogDevice} {w off pos : ℕ} (h : d.seekTo w off = .moved pos) :
    pos ≤ d.held.flatten.length := by
  have hsum : (d.numbered.map List.length).sum = d.held.flatten.length := by
    rw [List.length_flatten, numbered]
    split_ifs
    · exact ((List.rotate_perm _ _).map _).sum_eq
    · rfl
  unfold seekTo at h
  split_ifs at h with hbig hbyte hreach
  · injection h with hpos
    set ns := d.numbered.map List.length with hns
    have hw : w < ns.length := by
      by_contra hge
      rw [List.getD_eq_default _ _ (by omega)] at hbyte
      exact absurd hbyte (Nat.not_lt_zero _)
    rw [List.getD_eq_getElem _ _ hw] at hbyte
    have hsplit := congrArg List.sum (List.take_append_drop w ns)
    rw [List.drop_eq_getElem_cons hw, List.sum_append, List.sum_cons] at hsplit
    omega
  · injection h with hpos
    exact hpos.ge

/-! ## Replies -/

/-- Pieces that have been sent: each fits the largest buffer. -/
def Fits (ps : List (List Byte)) : Prop := ∀ p ∈ ps, p.length < 2 ^ 30

/-- The reply starts with the complete pieces that fit. -/
lemma replyTo_append {ps : List (List Byte)} (hps : ∀ p ∈ ps, Pieces.Complete newline p)
    (hfits : Fits ps) (rest : List Byte) :
    replyTo (ps.flatten ++ rest) = (ps.map cString).flatten ++ replyTo rest := by
  have hall : ∀ p ∈ ps, decide (p.length < 2 ^ 30) = true :=
    fun p hp => decide_eq_true (hfits p hp)
  have hmem : ∀ p ∈ ps, decide (newline ∈ p) = true := by
    intro p hp
    obtain ⟨body, rfl, -⟩ := hps p hp
    simp
  rw [replyTo, replyTo, Pieces.split_flatten hps, List.takeWhile_append_of_pos hall,
    List.filter_append, List.filter_eq_self.mpr hmem, List.map_append, List.flatten_append]

/-- Without a newline there is no reply. -/
lemma replyTo_of_not_mem {rest : List Byte} (h : newline ∉ rest) : replyTo rest = [] := by
  rcases eq_or_ne rest [] with rfl | hne
  · rfl
  · rw [replyTo, Pieces.split_of_not_mem h hne, List.takeWhile_cons]
    split_ifs
    · simp [h]
    · rfl

/-- There is no reply from a piece that fills the largest buffer. -/
lemma replyTo_of_long {front rest : List Byte} (h : newline ∉ front)
    (hlen : 2 ^ 30 - 1 ≤ front.length) : replyTo (front ++ rest) = [] := by
  rcases Pieces.not_mem_or_append newline rest with hrest | ⟨body, tail, rfl, hbody⟩
  · exact replyTo_of_not_mem (by simp [h, hrest])
  · have hlong : ¬(front ++ body ++ [newline]).length < 2 ^ 30 := by
      rw [List.length_append, List.length_append, List.length_singleton]
      omega
    rw [replyTo, ← List.append_assoc, Pieces.split_append (by simp [h, hbody]),
      List.takeWhile_cons_of_neg (by simpa using hlong)]
    rfl

/-- A call of `read_until_term` in progress. The size of its buffer is a power of two. -/
structure Reading (st : RutState) : Prop extends RutInv newline st where
  pow : ∃ k, st.bufsize = 2 ^ k

/-- A call starts, if it gets its buffer. -/
lemma exists_reading (flag : ℤ) {choice : Option Byte} (h : choice.isSome) :
    ∃ st, rutMalloc flag choice = .running st ∧ st.stored = [] ∧ Reading st := by
  obtain ⟨before, rfl⟩ := Option.isSome_iff_exists.mp h
  rcases rutMalloc_cases newline flag (some before) with
    ⟨hnone, -⟩ | ⟨before', st, -, hstart, hstored, -, -, hst⟩
  · exact absurd hnone (by simp)
  · refine ⟨st, hstart, hstored, hst, 7, ?_⟩
    injection hstart with hsame
    rw [← hsame]
    rfl

/-- **A buffer with room for another byte** has fewer than `2^30` bytes with it. -/
lemma Reading.grow {st st₁ : RutState} {env : IterEnv} (hst : Reading st)
    (h : rutGrow env st = some st₁) :
    Reading st₁ ∧ st₁.stored = st.stored ∧ (st₁.stored.length : ℤ) < st₁.bufsize - 1 ∧
      st₁.stored.length + 1 < 2 ^ 30 := by
  obtain ⟨hst₁, hstored, -, hroom, -, -⟩ := rutGrow_some hst.toRutInv h
  obtain ⟨k, hk⟩ := hst.pow
  obtain ⟨j, hj⟩ : ∃ j, st₁.bufsize = 2 ^ j := by
    rcases rutGrow_bufsize hst.toRutInv h with hsame | hdouble
    · exact ⟨k, hsame.trans hk⟩
    · exact ⟨k + 1, by rw [hdouble, hk, pow_succ, mul_comm]⟩
  refine ⟨⟨hst₁, j, hj⟩, hstored, hroom, ?_⟩
  have hlt := hst₁.bufsize_lt
  rw [hj] at hlt hroom
  have hj30 : j ≤ 30 := Nat.lt_succ_iff.mp ((pow_lt_pow_iff_right₀ (by decide : (1 : ℤ) < 2)).mp hlt)
  have hle : (2 : ℤ) ^ j ≤ 2 ^ 30 := pow_le_pow_right₀ (by decide) hj30
  omega

/-- An iteration that goes on after a byte. -/
lemma Reading.next {st st₁ st₂ : RutState} {env : IterEnv} {c : Byte} (hst : Reading st)
    (hgrow : rutGrow env st = some st₁)
    (h : rutConsume newline env (.byte c) st₁ = .running st₂) : Reading st₂ := by
  have hstep : RutStep newline (fun _ => env) st (.byte c) st₂ := ⟨st₁, hgrow, h⟩
  obtain ⟨-, -, -, hst₂, hbufsize⟩ := hst.toRutInv.step (by simp) hstep
  obtain ⟨k, hk⟩ := hst.pow
  rcases hbufsize with hsame | hdouble
  · exact ⟨hst₂, k, hsame.trans hk⟩
  · exact ⟨hst₂, k + 1, by rw [hdouble, hk, pow_succ, mul_comm]⟩

/-- The session replies with the bytes from the position on, or has done so. -/
def Answers (rest : List Byte) (p : ℤ) (s : Session) : Prop :=
  match s.pc with
  | .callRead => ∃ ps tail, SentUpTo rest p s.sent s.fPos ps [] tail ∧ Fits ps
  | .read st => Reading st ∧ ∃ ps tail, SentUpTo rest p s.sent s.fPos ps st.stored tail ∧ Fits ps
  | .send line => Pieces.Complete newline line.bytes ∧ line.bytes.length < 2 ^ 30 ∧
      ∃ ps tail, SentUpTo rest p s.sent s.fPos ps line.bytes tail ∧ Fits ps
  | .closeDevice | .unlock | .done => s.sent = replyTo rest
  | _ => False

variable {ι : Type} {fsl : FixedSizeLlseek} {i : ι} {g g' : Shared ι} {s s' : Session} {e : Event}
  {p : ℤ}

/-- A piece that was sent is part of the reply, and so are those before it. -/
lemma SentUpTo.sent_prefix {rest sent part tail : List Byte} {fPos : Option ℤ}
    {ps : List (List Byte)} (h : SentUpTo rest p sent fPos ps part tail) (hfits : Fits ps) :
    sent <+: replyTo rest := by
  rw [h.rest_eq, replyTo_append h.complete hfits, h.sent_eq]
  exact List.prefix_append _ _

/-- What has been sent is a prefix of the reply. -/
lemma Answers.sent_prefix {rest : List Byte} (h : Answers rest p s) : s.sent <+: replyTo rest := by
  unfold Answers at h
  split at h
  · obtain ⟨ps, tail, hsent, hfits⟩ := h
    exact hsent.sent_prefix hfits
  · obtain ⟨-, ps, tail, hsent, hfits⟩ := h
    exact hsent.sent_prefix hfits
  · obtain ⟨-, -, ps, tail, hsent, hfits⟩ := h
    exact hsent.sent_prefix hfits
  · rw [h]
  · rw [h]
  · rw [h]
  · exact h.elim

/-- **One iteration of the reply loop**: a newline completes a piece, and the end of the file ends
the reply. -/
lemma Answers.step_read {q : List AesdBufferEntry} (hI : Inv g.dev q []) (hlock : g.dev.lock = false)
    (h0 : 0 ≤ p) (hlt : p < 2 ^ 63) {st st₁ : RutState} {env : IterEnv} {readEnv : ReadEnv}
    {r : ReadResult} {fPos : Option ℤ} (hs : Answers (g.dev.bytesFrom p) p s)
    (hint : readEnv.interrupted = false) (huncopied : readEnv.uncopied = 0) (hpc : s.pc = .read st)
    (hgrow : rutGrow env st = some st₁) (hread : deviceRead g.dev s.fPos readEnv = some (r, fPos)) :
    Answers (g.dev.bytesFrom p) p ({ s with fPos }.afterRead (rutConsume newline env r st₁)) := by
  simp only [Answers, hpc] at hs
  obtain ⟨hst, ps, tail, hsent, hfits⟩ := hs
  obtain ⟨hst₁, hstored, hroom, hshort⟩ := hst.grow hgrow
  rw [← hstored] at hsent
  rw [hsent.read_of_inv hI hlock h0 hlt hint huncopied] at hread
  cases tail with
  | nil =>
    rw [List.head?_nil, Option.elim_none] at hread
    obtain ⟨rfl, rfl⟩ := Prod.mk.inj (Option.some.inj hread)
    have hend : ∃ line flag, (flag = 5 ∨ flag = 4) ∧
        rutConsume newline env .eof st₁ = .returned line flag := by
      rcases rutConsume_eof_cases env hst₁.toRutInv with ⟨-, hret⟩ | ⟨-, line, hret, -⟩
      · exact ⟨none, 4, .inr rfl, hret⟩
      · exact ⟨some line, 5, .inl rfl, hret⟩
    obtain ⟨line, flag, hflag, hret⟩ := hend
    simp only [hret, Session.afterRead, if_pos hflag]
    -- what follows the last newline is not part of the reply
    show s.sent = _
    rw [hsent.rest_eq, List.append_nil, replyTo_append hsent.complete hfits,
      replyTo_of_not_mem hst₁.not_mem, List.append_nil]
    exact hsent.sent_eq
  | cons c tail =>
    rw [List.head?_cons, Option.elim_some, List.take_succ_cons, List.take_zero] at hread
    obtain ⟨rfl, rfl⟩ := Prod.mk.inj (Option.some.inj hread)
    have hnext := hsent.next
    rcases rutConsume_byte_cases env hst₁.toRutInv hroom c with
      ⟨rfl, line, hret, hline, -⟩ | ⟨-, st₂, hret, hstored₂, -⟩
    · rw [hret, Session.afterRead_line]
      refine ⟨⟨st₁.stored, hline, hst₁.not_mem⟩, ?_, ps, tail, ?_, hfits⟩
      · rw [hline, List.length_append, List.length_singleton]
        exact hshort
      · rw [hline]
        exact hnext
    · simp only [hret, Session.afterRead]
      refine ⟨hst.next hgrow hret, ps, tail, ?_, hfits⟩
      rw [hstored₂]
      exact hnext

/-- **A step of the reply loop** does not touch the device, and ends with the whole reply. A piece
that does not fit the largest buffer ends the reply.

**Proof sketch.** One case for each move. The buffer can only fail to grow when it is full, and then
the piece that fills it and all that follows are not part of the reply. -/
lemma Answers.step {q : List AesdBufferEntry} (hI : Inv g.dev q []) (hlock : g.dev.lock = false)
    (h0 : 0 ≤ p) (hlt : p < 2 ^ 63) (hs : Answers (g.dev.bytesFrom p) p s)
    (he : e.Succeeds g.dev s.pc) (h : sessionStep fsl i g s e = some (g', s')) :
    g'.dev = g.dev ∧ Answers (g.dev.bytesFrom p) p s' := by
  cases sessionStep_move h with
  | @callRead choice hpc =>
    simp only [Answers, hpc] at hs
    obtain ⟨ps, tail, hsent, hfits⟩ := hs
    obtain ⟨st, hret, hnil, hst⟩ := exists_reading s.flag he
    rw [hret]
    refine ⟨rfl, hst, ps, tail, ?_, hfits⟩
    rw [hnil]
    exact hsent
  | @readFull st env readEnv hpc hgrow =>
    simp only [Answers, hpc] at hs
    obtain ⟨hst, ps, tail, hsent, hfits⟩ := hs
    have hlong : 2 ^ 30 - 1 ≤ st.stored.length := by
      rcases rutGrow_none hst.toRutInv hgrow with hnone | hlong
      · exact absurd he.1 (by simp [hnone])
      · exact hlong
    refine ⟨rfl, ?_⟩
    show s.sent = _
    rw [hsent.rest_eq, replyTo_append hsent.complete hfits, replyTo_of_long hst.not_mem hlong,
      List.append_nil]
    exact hsent.sent_eq
  | read hpc hgrow hread => exact ⟨rfl, hs.step_read hI hlock h0 hlt he.2.1 he.2.2 hpc hgrow hread⟩
  | @send line n hpc =>
    simp only [Answers, hpc] at hs
    obtain ⟨hcomplete, hshort, ps, tail, hsent, hfits⟩ := hs
    have hn : n = some (cString line.bytes).length := by
      simpa only [Event.Succeeds, hpc] using he
    rw [hn, Option.getD_some, List.take_length]
    refine ⟨rfl, ps ++ [line.bytes], tail, hsent.concat hcomplete, ?_⟩
    intro piece hpiece
    rcases List.mem_append.mp hpiece with hpiece | hpiece
    · exact hfits piece hpiece
    · rw [List.mem_singleton.mp hpiece]
      exact hshort
  | closeDevice hpc | unlock hpc =>
    simp only [Answers, hpc] at hs
    exact ⟨rfl, hs⟩
  | unlockFailed hpc => exact absurd he (by simp [Event.Succeeds])
  | _ hpc => simp only [Answers, hpc] at hs

/-- A reply that starts. -/
lemma answers_start {rest : List Byte} (hpc : s.pc = .callRead) (hpos : s.fPos = some p)
    (hsent : s.sent = []) : Answers rest p s := by
  simp only [Answers, hpc]
  refine ⟨[], rest, ⟨rfl, by simp, hsent, ?_⟩, by simp [Fits]⟩
  rw [hpos]
  simp

/-! ## The critical section -/

namespace Shows

variable {dev dev' : Driver} {d : LogDevice} {line : List Byte}

/-- A seek to `0` succeeds. -/
lemma seek (h : Shows dev d) (fsl : FixedSizeLlseek) (p : ℤ) :
    deviceSeek fsl dev (some p) = some 0 := by
  obtain ⟨q, hI⟩ := h.inv
  have hseek := aesdLlseek_set fsl hI p (Nat.zero_le dev.commands.flatten.length)
  rw [deviceSeek, Option.map_some]
  exact congrArg (fun r : ℤ × ℤ => some r.2) hseek

/-- **A complete write of a line** appends it to the log, up to its first NUL. -/
lemma takes_of_write (h : Shows dev d) (hline : parseSeekto line = none) {p : ℤ} {env : WriteEnv}
    {reply : Reply} (ha : Allocates dev (userBuf (cString line)) env) (huncopied : env.uncopied = 0)
    (hwrite : aesdWrite dev p (userBuf (cString line)) env = some (reply, dev')) :
    ∃ d', Takes d line d' 0 ∧ Shows dev' d' := by
  obtain ⟨q, hI⟩ := h.inv
  obtain ⟨found, hd⟩ := writeDone_of_allocates hI ha hwrite
  obtain ⟨hne, hfound⟩ := scanBlock_eq_some.mp hd.found_eq
  have hsize := ha.size_le
  rw [h.pending_eq] at hsize
  -- a write that gets its block is not cut at the most bytes the VFS passes on
  have hbytes : (userBuf (cString line)).bytes = cString line := by
    refine List.take_of_length_le ?_
    by_contra hlong
    rw [show (userBuf (cString line)).bytes.length = maxRwCount from
      List.length_take_of_le (by omega), maxRwCount, kmallocMaxSize] at hsize
    omega
  have hcopied : env.copied (userBuf (cString line)) = (cString line).length := by
    rw [WriteEnv.copied, hbytes, huncopied, Nat.zero_min, Nat.sub_zero]
  have hshows := h.write hd.lock_eq hd.stored
  rw [hbytes, hcopied, List.take_length] at hshows
  rw [hbytes] at hsize
  rw [hbytes, h.pending_eq] at hne
  refine ⟨_, .data hline hne hsize fun hmem => hfound.mpr (.inl ?_), hshows⟩
  rw [accumulated, h.pending_eq, hbytes, hcopied, List.take_length]
  exact hmem

end Shows

/-- The reply starts within the commands held. -/
lemma Takes.pos_le {d d' : LogDevice} {line : List Byte} {pos : ℕ} (h : Takes d line d' pos) :
    pos ≤ d'.held.flatten.length := by
  cases h with
  | data | refused => exact Nat.zero_le _
  | moved hline hpos => exact LogDevice.seekTo_le hpos

/-- The device can be read from where the reply starts. -/
lemma Takes.readable {dev : Driver} {d d' : LogDevice} {line : List Byte} {pos : ℕ}
    (h : Takes d line d' pos) (hdev : Shows dev d') (hlock : d.locked = false) :
    (∃ q, Inv dev q []) ∧ dev.lock = false ∧ (pos : ℤ) < 2 ^ 63 ∧
      d'.held.flatten.drop pos = dev.bytesFrom pos := by
  obtain ⟨q, hI⟩ := hdev.inv
  have htotal := hI.length_flatten_lt
  have hpos := h.pos_le
  rw [hdev.commands_eq] at htotal
  refine ⟨⟨q, hI⟩, hdev.lock_eq.trans (h.unlocked hlock), by omega, ?_⟩
  rw [Driver.bytesFrom, hdev.commands_eq, Int.toNat_natCast]

/-- A session in its critical section, which it entered with the line while the device showed `d`:
it opens the device, writes the line or seeks, replies, or waits for the mutex of the device for
good. -/
inductive Serving (d : LogDevice) (line : List Byte) (i : ι) (g : Shared ι) (s : Session) : Prop
  | opening {received : Line} (hpc : s.pc = .openDevice received) (hline : received.bytes = line)
      (hmutex : g.mutex = some i) (hdev : Shows g.dev d) (hsent : s.sent = [])
  | writing {received : Line} (hpc : s.pc = .seekWrite received ∨ s.pc = .write received)
      (hline : received.bytes = line) (hseek : parseSeekto line = none) (hpos : s.fPos = some 0)
      (hmutex : g.mutex = some i) (hdev : Shows g.dev d) (hsent : s.sent = [])
  | seeking {seekto : AesdSeekto} (hpc : s.pc = .ioctl seekto)
      (hseek : parseSeekto line = some seekto) (hpos : s.fPos = some 0)
      (hmutex : g.mutex = some i) (hdev : Shows g.dev d) (hsent : s.sent = [])
  | written {d' : LogDevice} (hpc : s.pc = .seekRead) (htakes : Takes d line d' 0)
      (hdev : Shows g.dev d') (hpos : s.fPos.isSome) (hmutex : g.mutex = some i)
      (hsent : s.sent = [])
  | replying {d' : LogDevice} {pos : ℕ} (htakes : Takes d line d' pos) (hdev : Shows g.dev d')
      (hs : Answers (d'.held.flatten.drop pos) pos s)
      (hmutex : g.mutex = if s.pc.isDone then none else some i)
  | stuck (hsticks : Sticks d line) (hlock : g.dev.lock = true)
      (hpc : s.pc = .callRead ∨ ∃ st, s.pc = .read st ∧ st.stored = [] ∧ Reading st)
      (hpos : s.fPos.isSome) (hmutex : g.mutex = some i) (hsent : s.sent = [])

/-- A session in its critical section is not done. -/
lemma isDone_of_inside {pc : Pc} (h : pc.phase = .inside) : pc.isDone = false := by
  cases pc with
  | done => exact absurd h (by simp [Pc.phase])
  | _ => rfl

/-- A step of the reply loop keeps the mutex, and gives it back when the session is done. -/
lemma mutex_of_reply (hs : g.mutex = if s.pc.isDone then none else some i) {rest : List Byte}
    (hans : Answers rest p s) (he : e.Succeeds g.dev s.pc)
    (h : sessionStep fsl i g s e = some (g', s')) :
    g'.mutex = if s'.pc.isDone then none else some i := by
  have hread : ∀ (s : Session) (o : RutOutcome), (s.afterRead o).pc.isDone = false :=
    fun s o => isDone_of_inside (afterRead_phase s o)
  cases sessionStep_move h with
  | callRead hpc | readFull hpc | read hpc =>
    rw [hs, hread]
    simp [hpc, Pc.isDone]
  | send hpc | closeDevice hpc =>
    rw [hs]
    simp [hpc, Pc.isDone]
  | unlock hpc => rfl
  | unlockFailed hpc => exact absurd he (by simp [Event.Succeeds])
  | _ hpc => simp only [Answers, hpc] at hans

namespace Serving

variable {d : LogDevice} {line : List Byte}

/-- The session opens the device. -/
lemma step_opening {received : Line} (hpc : s.pc = .openDevice received)
    (hline : received.bytes = line) (hmutex : g.mutex = some i) (hdev : Shows g.dev d)
    (hsent : s.sent = []) (he : e.Succeeds g.dev s.pc)
    (h : sessionStep fsl i g s e = some (g', s')) : Serving d line i g' s' := by
  cases sessionStep_move h with
  | @openDevice opened ok hopen =>
    obtain rfl : ok = true := he
    rw [hpc] at hopen
    injection hopen with hsame
    subst hsame
    cases hseek : parseSeekto line with
    | none =>
      refine .writing (.inl ?_) hline hseek ?_ hmutex hdev ?_ <;>
        simp only [afterOpen, hline, hseek, hsent]
      rfl
    | some seekto =>
      refine .seeking ?_ hseek ?_ hmutex hdev ?_ <;> simp only [afterOpen, hline, hseek, hsent]
      rfl
  | _ hother => exact absurd (hpc.symm.trans hother) (by simp)

/-- The session moves to the start of the device and writes its line. -/
lemma step_writing {received : Line} (hpc : s.pc = .seekWrite received ∨ s.pc = .write received)
    (hline : received.bytes = line) (hseek : parseSeekto line = none) (hpos : s.fPos = some 0)
    (hmutex : g.mutex = some i) (hdev : Shows g.dev d) (hsent : s.sent = [])
    (he : e.Succeeds g.dev s.pc) (h : sessionStep fsl i g s e = some (g', s')) :
    Serving d line i g' s' := by
  rcases hpc with hpc | hpc
  · cases sessionStep_move h with
    | @seekWrite received' hmove =>
      rw [hpc] at hmove
      injection hmove with hsame
      subst hsame
      refine .writing (.inr rfl) hline hseek ?_ hmutex hdev hsent
      rw [hpos]
      exact hdev.seek fsl 0
    | _ hother => exact absurd (hpc.symm.trans hother) (by simp)
  · cases sessionStep_move h with
    | writeClosed hmove hclosed => exact absurd (hpos.symm.trans hclosed) (by simp)
    | @write received' env p reply dev hmove hopen hwrite =>
      rw [hpc] at hmove
      injection hmove with hsame
      subst hsame
      simp only [Event.Succeeds, hpc, hline] at he
      rw [hline] at hwrite
      obtain ⟨d', htakes, hdev'⟩ := hdev.takes_of_write hseek he.1 he.2 hwrite
      exact .written rfl htakes hdev' rfl hmutex hsent
    | _ hother => exact absurd (hpc.symm.trans hother) (by simp)

/-- The session seeks to the position its line names. -/
lemma step_seeking {seekto : AesdSeekto} (hpc : s.pc = .ioctl seekto)
    (hseek : parseSeekto line = some seekto) (hpos : s.fPos = some 0) (hmutex : g.mutex = some i)
    (hdev : Shows g.dev d) (hlock : d.locked = false) (hsent : s.sent = [])
    (he : e.Succeeds g.dev s.pc) (h : sessionStep fsl i g s e = some (g', s')) :
    Serving d line i g' s' := by
  cases sessionStep_move h with
  | ioctlClosed hmove hclosed => exact absurd (hpos.symm.trans hclosed) (by simp)
  | @ioctl seekto' interrupted copied p reply dev hmove hopen hioctl =>
    rw [hpc] at hmove
    injection hmove with hsame
    subst hsame
    obtain ⟨rfl, rfl⟩ := he
    obtain rfl : p = 0 := Option.some.inj (hopen.symm.trans hpos)
    have hret := aesdIoctl_seekto fsl g.dev 0 ⟨false, some seekto⟩ rfl
    rw [hdev.adjust (hdev.lock_eq.trans hlock) 0 _ seekto.writeCmdOffset.toNat_lt] at hret
    rw [if_pos rfl, hret] at hioctl
    cases hout : d.seekTo seekto.writeCmd.toNat seekto.writeCmdOffset.toNat with
    | refused =>
      rw [hout] at hioctl
      obtain ⟨rfl, rfl⟩ := Prod.mk.inj (Option.some.inj hioctl)
      exact .replying (.refused hseek hout) hdev (answers_start rfl rfl hsent) hmutex
    | moved pos =>
      rw [hout] at hioctl
      obtain ⟨rfl, rfl⟩ := Prod.mk.inj (Option.some.inj hioctl)
      exact .replying (.moved hseek hout) hdev (answers_start rfl rfl hsent) hmutex
    | stuck =>
      rw [hout] at hioctl
      obtain ⟨rfl, rfl⟩ := Prod.mk.inj (Option.some.inj hioctl)
      exact .stuck ⟨seekto, hseek, hout⟩ rfl (.inl rfl) rfl hmutex hsent
  | _ hother => exact absurd (hpc.symm.trans hother) (by simp)

/-- No read of the device returns while its mutex is held. -/
lemma not_step_of_lock {st : RutState} (hpc : s.pc = .read st) (hnil : st.stored = [])
    (hst : Reading st) (hlock : g.dev.lock = true) (hpos : s.fPos.isSome)
    (he : e.Succeeds g.dev s.pc) : sessionStep fsl i g s e ≠ some (g', s') := by
  intro h
  obtain ⟨p, hp⟩ := Option.isSome_iff_exists.mp hpos
  cases sessionStep_move h with
  | @readFull st' env readEnv hmove hgrow =>
    rw [hpc] at hmove
    injection hmove with hsame
    subst hsame
    rcases rutGrow_none hst.toRutInv hgrow with hnone | hlong
    · exact absurd he.1 (by simp [hnone])
    · rw [hnil] at hlong
      exact absurd hlong (by decide)
  | @read st' st₁ env readEnv r fPos hmove hgrow hread =>
    rw [hp, deviceRead, aesdRead_of_lock hlock p 1 he.2.1] at hread
    exact absurd hread (by simp)
  | _ hother => exact absurd (hpc.symm.trans hother) (by simp)

/-- The session waits for the mutex of the device. -/
lemma step_stuck (hsticks : Sticks d line) (hlock : g.dev.lock = true)
    (hpc : s.pc = .callRead ∨ ∃ st, s.pc = .read st ∧ st.stored = [] ∧ Reading st)
    (hpos : s.fPos.isSome) (hmutex : g.mutex = some i) (hsent : s.sent = [])
    (he : e.Succeeds g.dev s.pc) (h : sessionStep fsl i g s e = some (g', s')) :
    Serving d line i g' s' := by
  rcases hpc with hpc | ⟨st, hpc, hnil, hst⟩
  · cases sessionStep_move h with
    | @callRead choice hmove =>
      obtain ⟨st, hret, hnil, hst⟩ := exists_reading s.flag he
      rw [hret]
      exact .stuck hsticks hlock (.inr ⟨st, rfl, hnil, hst⟩) hpos hmutex hsent
    | _ hother => exact absurd (hpc.symm.trans hother) (by simp)
  · exact absurd h (not_step_of_lock hpc hnil hst hlock hpos he)

/-- **A step of the critical section.** -/
theorem step (hs : Serving d line i g s) (hlock : d.locked = false) (he : e.Succeeds g.dev s.pc)
    (h : sessionStep fsl i g s e = some (g', s')) : Serving d line i g' s' := by
  cases hs with
  | opening hpc hline hmutex hdev hsent => exact step_opening hpc hline hmutex hdev hsent he h
  | writing hpc hline hseek hpos hmutex hdev hsent =>
    exact step_writing hpc hline hseek hpos hmutex hdev hsent he h
  | seeking hpc hseek hpos hmutex hdev hsent =>
    exact step_seeking hpc hseek hpos hmutex hdev hlock hsent he h
  | @written d' hpc htakes hdev hpos hmutex hsent =>
    obtain ⟨p, hp⟩ := Option.isSome_iff_exists.mp hpos
    cases sessionStep_move h with
    | seekRead hmove =>
      refine .replying htakes hdev (answers_start rfl ?_ hsent) hmutex
      rw [hp]
      exact hdev.seek fsl p
    | _ hother => exact absurd (hpc.symm.trans hother) (by simp)
  | @replying d' pos htakes hdev hans hmutex =>
    obtain ⟨⟨q, hI⟩, hfree, hlt, hrest⟩ := htakes.readable hdev hlock
    rw [hrest] at hans
    obtain ⟨hsame, hans'⟩ := hans.step hI hfree (Int.natCast_nonneg pos) hlt he h
    refine .replying htakes (hsame ▸ hdev) ?_ (mutex_of_reply hmutex hans he h)
    rw [hrest]
    exact hans'
  | stuck hsticks hheld hpc hpos hmutex hsent =>
    exact step_stuck hsticks hheld hpc hpos hmutex hsent he h

end Serving

/-! ## All sessions -/

/-- The line of a client: what it sends up to its first newline, or all of it. -/
def lineOf (client : List Byte) : List Byte := ((Pieces.split newline client).head?).getD []

/-- Before the critical sections nothing depends on the device for a step to succeed. -/
lemma succeeds_of_before (dev dev' : Driver) (pc : Pc) (e : Event) (hphase : pc.phase = .before)
    (he : e.Succeeds dev pc) : e.Succeeds dev' pc := by
  cases e with
  | write env =>
    cases pc with
    | write line => exact absurd hphase (by simp [Pc.phase])
    | _ => exact trivial
  | _ => exact he

variable {n : ℕ}

/-- The sessions as threads with one mutex, while everything succeeds. -/
abbrev successfulProtocol (n : ℕ) (fsl : FixedSizeLlseek) :
    Protocol (Fin n) (Shared (Fin n)) Session Event :=
  sessionProtocol n fsl Event.Succeeds succeeds_of_before

/-- The session has received what it has, and sent nothing. -/
def ReadyToServe (client : Fin n → List Byte) (i : Fin n) (s : Session) : Prop :=
  Received (client i) s ∧ s.sent = []

/-- The device is between two operations of the service. -/
structure AtRest (g : Shared ι) (d : LogDevice) : Prop where
  dev : Shows g.dev d
  locked_eq : d.locked = false
  mutex_eq : g.mutex = none

/-- Nothing is sent before the critical section. -/
lemma sent_of_before (h : sessionStep fsl i g s e = some (g', s')) (hphase : s.pc.phase = .before) :
    s'.sent = s.sent := by
  have hrecv : ∀ (s : Session) (o : RutOutcome), (s.afterRecv o).sent = s.sent := by
    intro s o
    unfold Session.afterRecv
    split <;> rfl
  cases sessionStep_move h with
  | callRecv hpc | recvFull hpc | recv hpc => exact hrecv _ _
  | lock hpc | lockFailed hpc => rfl
  | _ hpc => exact absurd hphase (by simp [Pc.phase, hpc])

/-- **Before the critical sections** every session has received what it has, and sent nothing. -/
lemma ready_of_run {client : Fin n → List Byte} {t v : Threads (Fin n) (Shared (Fin n)) Session}
    {ks : List (Fin n × Event)} (ht : ∀ i, ReadyToServe client i (t.loc i))
    (hphase : ∀ i, (t.loc i).pc.phase ≠ .inside)
    (h : Run (successfulProtocol n fsl).Step t ks v) (hks : ∀ k ∈ ks, k.2.isLock = false) :
    ∀ i, ReadyToServe client i (v.loc i) := by
  have hrun : (∀ k ∈ ks, k.2.isLock = false) →
      ∀ i, ReadyToServe client i (v.loc i) ∧ (v.loc i).pc.phase ≠ .inside := by
    refine h.invariant_labels (I := fun ks v => (∀ k ∈ ks, k.2.isLock = false) →
      ∀ i, ReadyToServe client i (v.loc i) ∧ (v.loc i).pc.phase ≠ .inside)
      (fun _ i => ⟨ht i, hphase i⟩) ?_
    intro ks v l u _ ih hstep hks i
    have hv := ih fun k hk => hks k (List.mem_append_left _ hk)
    rcases eq_or_ne i l.1 with rfl | hi
    · obtain ⟨g, s, ⟨he, hsession⟩, hu⟩ := hstep
      have hself : u.loc l.1 = s := by
        rw [hu]
        exact Function.update_self _ _ _
      have hbefore : (v.loc l.1).pc.phase = .before := by
        cases hpc : (v.loc l.1).pc.phase with
        | before => rfl
        | inside => exact absurd hpc (hv l.1).2
        | after => exact absurd hpc (sessionStep_after hsession)
      obtain ⟨-, hnot, -⟩ := sessionStep_before hsession hbefore (hks l (by simp))
      rw [hself]
      exact ⟨⟨(hv l.1).1.1.step he hsession,
        (sent_of_before hsession hbefore).trans (hv l.1).1.2⟩, hnot⟩
    · rw [hstep.loc_of_ne hi]
      exact hv i
  exact fun i => (hrun hks i).1

/-- **A critical section from its start**: it is serving the line of its client. -/
lemma serving_of_section {client : Fin n → List Byte} {i : Fin n} {g g' : Shared (Fin n)}
    {s s' : Session} {d : LogDevice} {k : Event} {ks : List Event} (hg : AtRest g d)
    (hs : ReadyToServe client i s) (hlock : k.isLock = true)
    (h : Run ((successfulProtocol n fsl).Alone i) (g, s) (k :: ks) (g', s')) :
    Serving d (lineOf (client i)) i g' s' := by
  obtain ⟨⟨g₁, s₁⟩, ⟨-, hfirst⟩, hrest⟩ := h.uncons
  have hopening : Serving d (lineOf (client i)) i g₁ s₁ := by
    have hfirst : sessionStep fsl i g s k = some (g₁, s₁) := hfirst
    cases sessionStep_move hfirst with
    | @lock line hpc hfree =>
      refine .opening rfl ?_ rfl hg.dev hs.2
      have hline := hs.1
      simp only [Received, hpc] at hline
      rw [lineOf, hline, Option.getD_some]
    | _ => exact absurd hlock (by simp [Event.isLock])
  refine hrest.invariant (I := fun y => Serving d (lineOf (client i)) i y.1 y.2) hopening ?_
  rintro y l z hy ⟨he, hstep⟩
  exact hy.step hg.locked_eq he hstep

/-- A session that has given the mutex back has done one operation of the service. -/
lemma Serving.served {d : LogDevice} {line : List Byte} (h : Serving d line i g s)
    (hlock : d.locked = false) (hfree : g.mutex = none) :
    s.pc = .done ∧ ∃ d', ServeStep d (line, s.sent) d' ∧ AtRest g d' := by
  cases h with
  | @replying d' pos htakes hdev hs hmutex =>
    rw [hfree] at hmutex
    have hpc : s.pc = .done := by
      cases hpc : s.pc with
      | done => rfl
      | _ => simp [hpc, Pc.isDone] at hmutex
    simp only [Answers, hpc] at hs
    exact ⟨hpc, d', ⟨pos, htakes, hs⟩, hdev, htakes.unlocked hlock, hfree⟩
  | opening _ _ hmutex | writing _ _ _ _ hmutex | seeking _ _ _ hmutex | written _ _ _ _ hmutex
  | stuck _ _ _ _ hmutex => exact absurd (hmutex.symm.trans hfree) (by simp)

/-- A session in its critical section holds the mutex until it is done. -/
lemma Serving.mutex_eq {d : LogDevice} {line : List Byte} (h : Serving d line i g s)
    (hheld : g.mutex ≠ none) : g.mutex = some i ∧ s.pc ≠ .done := by
  cases h with
  | replying htakes hdev hs hmutex =>
    cases hdone : s.pc.isDone with
    | true =>
      rw [hdone] at hmutex
      exact absurd hmutex hheld
    | false =>
      rw [hdone] at hmutex
      exact ⟨hmutex, fun hpc => by simp [hpc, Pc.isDone] at hdone⟩
  | opening hpc _ hmutex | seeking hpc _ _ hmutex | written hpc _ _ _ hmutex =>
    exact ⟨hmutex, fun hdone => by simp [hdone] at hpc⟩
  | writing hpc _ _ _ hmutex | stuck _ _ hpc _ hmutex =>
    exact ⟨hmutex, fun hdone => by simp [hdone] at hpc⟩

/-- A session that holds the mutex has sent a prefix of a reply the service can give, or nothing. -/
lemma Serving.sent_prefix {d : LogDevice} {line : List Byte} (h : Serving d line i g s) :
    s.sent = [] ∨ ∃ d' pos, Takes d line d' pos ∧ Shows g.dev d' ∧
      s.sent <+: replyTo (d'.held.flatten.drop pos) := by
  cases h with
  | @replying d' pos htakes hdev hs => exact .inr ⟨d', pos, htakes, hdev, hs.sent_prefix⟩
  | opening _ _ _ _ hsent | writing _ _ _ _ _ _ hsent | seeking _ _ _ _ _ hsent
  | written _ _ _ _ _ hsent | stuck _ _ _ _ _ hsent => exact .inl hsent

/-- What a run of the server has done, from a device that showed `d`: the sessions in `finished` are
done and have each done one operation of the service, a session in `rest` holds the mutex and is
serving its line, and the others have not taken the mutex. -/
structure Served (client : Fin n → List Byte) (d : LogDevice) (ls : List (Fin n × Event))
    (t : Server n) (finished rest : List (Fin n)) (d' : LogDevice) : Prop where
  order_eq : lockOrder ls = finished ++ rest
  nodup : (lockOrder ls).Nodup
  length_le : rest.length ≤ 1
  run : Run ServeStep d (finished.map fun i => (lineOf (client i), (t.sess i).sent)) d'
  locked_eq : d'.locked = false
  related : rest = [] → AtRest t.shared d'
  done : ∀ i ∈ finished, (t.sess i).pc = .done
  serving : ∀ i ∈ rest, t.shared.mutex = some i ∧
    Serving d' (lineOf (client i)) i t.shared (t.sess i)
  waiting : ∀ i ∉ lockOrder ls, ReadyToServe client i (t.sess i) ∧
    (t.sess i).pc.phase ≠ .inside

/-- **Every run of the server is linearized.**

**Proof sketch.** A critical section that runs alone and gives the mutex back does one operation. A
session that has taken the mutex is past the step before its critical section, and inside only while
it holds the mutex. -/
lemma exists_served {dev : Driver} {d : LogDevice} (hdev : Shows dev d) (hlock : d.locked = false)
    {client : Fin n → List Byte} {ls : List (Fin n × Event)} {t : Server n}
    (hrun : Run (guarded Succeeds (ServerStep fsl)) (Server.start dev client) ls t) :
    ∃ finished rest d', Served client d ls t finished rest d' := by
  have hphase : ∀ i, (successfulProtocol n fsl).phase ((Server.start dev client).threads.loc i) ≠
      .inside := start_phase dev client
  have hthreads := run_threads succeeds_of_before (C := Event.Succeeds) hrun
  have hready : ∀ i, ReadyToServe client i ((Server.start dev client).threads.loc i) :=
    fun i => ⟨rfl, rfl⟩
  have hlin : (∀ i ∉ order Event.isLock ls, ReadyToServe client i (t.threads.loc i)) ∧
      ∃ finished rest d', Linearized (successfulProtocol n fsl) ServeStep AtRest
        (ReadyToServe client) (fun i s => (lineOf (client i), s.sent)) d (order Event.isLock ls)
        t.threads finished rest d' := by
    refine Protocol.linearize hphase (fun v hv => ready_of_run hready hphase hv fun k hk =>
      not_lock_of_mem_preparation hk) ?_ ⟨hdev, hlock, rfl⟩ hthreads
    intro i g s d k ks g' s' hg hs hk h hfree
    exact ((serving_of_section hg hs hk h).served hg.locked_eq hfree).2
  have hex := Protocol.exclusive_of_run hphase hthreads
  have hnodup : (order Event.isLock ls).Nodup := hex.nodup
  have hentered : ∀ i ∈ order Event.isLock ls, (t.sess i).pc.phase ≠ .before := hex.entered
  have hlast : ∀ i, (t.sess i).pc.phase = .inside → ∃ pre, order Event.isLock ls = pre ++ [i] :=
    hex.last
  have hholder : ∀ i, (t.sess i).pc.phase = .inside → t.shared.mutex = some i := hex.holder_eq
  obtain ⟨hothers, finished, rest, d', hlin⟩ := hlin
  rw [order_isLock] at hnodup hentered hothers hlin
  have hserving : ∀ i ∈ rest, d'.locked = false ∧ t.shared.mutex = some i ∧
      Serving d' (lineOf (client i)) i t.shared (t.sess i) := by
    intro i hi
    obtain ⟨hheld, g, s, k, ks, hg, hs, hk, h⟩ := hlin.pending i hi
    have hserving := serving_of_section hg hs hk h
    exact ⟨hg.locked_eq, (hserving.mutex_eq hheld).1, hserving⟩
  refine ⟨finished, rest, d', hlin.order_eq, hnodup, hlin.length_le, hlin.run, ?_, hlin.related,
    fun i hi => ?_, fun i hi => (hserving i hi).2, fun i hi => ⟨hothers i hi, fun hinside => ?_⟩⟩
  · cases rest with
    | nil => exact (hlin.related rfl).locked_eq
    | cons j rest => exact (hserving j List.mem_cons_self).1
  · have hmem : i ∈ lockOrder ls := hlin.order_eq ▸ List.mem_append_left _ hi
    have hinside : (t.sess i).pc.phase ≠ .inside := by
      intro hinside
      cases rest with
      | nil =>
        exact absurd ((hholder i hinside).symm.trans (hlin.related rfl).mutex_eq) (by simp)
      | cons j rest =>
        -- the session that holds the mutex is another one
        obtain ⟨-, hj, -⟩ := hserving j List.mem_cons_self
        obtain rfl := Option.some.inj ((hholder i hinside).symm.trans hj)
        rw [hlin.order_eq] at hnodup
        exact (List.nodup_append.mp hnodup).2.2 i hi i List.mem_cons_self rfl
    have hbefore := hentered i hmem
    cases hpc : (t.sess i).pc with
    | done => rfl
    | _ => simp [hpc, Pc.phase] at hinside hbefore
  · obtain ⟨pre, hpre⟩ := hlast i hinside
    rw [order_isLock] at hpre
    exact hi (hpre ▸ List.mem_append_right _ List.mem_cons_self)

/-- **The contract of the server.** Take any number of clients with any bytes to send, on a device
that is free, and any interleaving of the sessions in which everything that may fail succeeds. The
sessions that took the mutex and are done have each had the service of one operation, in the order
in which they took it: the line of the client, which is what it sends up to its first newline, is
appended to the log up to its first NUL, or is a seek request and moves the position; and the bytes
sent are the complete pieces that the device holds from there on, each up to its first NUL, as far
as they fit the largest buffer. At most one session holds the mutex; it has sent a prefix of such a
reply. The others have sent nothing. -/
theorem server_contract (fsl : FixedSizeLlseek) {dev : Driver} {d : LogDevice} (hdev : Shows dev d)
    (hlock : d.locked = false) {client : Fin n → List Byte} {ls : List (Fin n × Event)}
    {t : Server n} (hrun : Run (guarded Succeeds (ServerStep fsl)) (Server.start dev client) ls t) :
    (lockOrder ls).Nodup ∧
      (∀ i ∉ lockOrder ls, (t.sess i).sent = []) ∧
      ∃ finished rest d', lockOrder ls = finished ++ rest ∧ rest.length ≤ 1 ∧
        Run ServeStep d (finished.map fun i => (lineOf (client i), (t.sess i).sent)) d' ∧
        (rest = [] → AtRest t.shared d') ∧
        (∀ i ∈ finished, (t.sess i).pc = .done) ∧
        ∀ i ∈ rest, (t.sess i).pc ≠ .done ∧ ((t.sess i).sent = [] ∨
          ∃ d'' pos, Takes d' (lineOf (client i)) d'' pos ∧ Shows t.shared.dev d'' ∧
            (t.sess i).sent <+: replyTo (d''.held.flatten.drop pos)) := by
  obtain ⟨finished, rest, d', h⟩ := exists_served hdev hlock hrun
  refine ⟨h.nodup, fun i hi => (h.waiting i hi).1.2, finished, rest, d', h.order_eq, h.length_le,
    h.run, h.related, h.done, fun i hi => ?_⟩
  obtain ⟨hmutex, hserving⟩ := h.serving i hi
  exact ⟨(hserving.mutex_eq (by simp [hmutex])).2, hserving.sent_prefix⟩

/-- Two sessions on a fresh device whose clients send `"a\n"` come to their ends, and have then done
two operations of the service. -/
theorem server_contract_two_sessions :
    ∃ ls t d', Run (guarded Succeeds (ServerStep fixedSizeLlseek))
        (Server.start (initialDriver 0) fun _ : Fin 2 => [97, 10] ++ []) ls t ∧
      (∀ i, (t.sess i).pc = .done) ∧ AtRest t.shared d' ∧
      Run ServeStep ⟨.empty, false⟩ ((lockOrder ls).map fun i => ([97, 10], (t.sess i).sent)) d' := by
  have hdev : Initialised (initialDriver 0) := initialised_iff.mpr ⟨0, rfl⟩
  have hline : EchoLine [97, 10] := ⟨⟨⟨[97], rfl, by decide⟩, by decide⟩, by decide, rfl⟩
  have hlines : ∀ i : Fin 2, EchoLine ((fun _ => [97, 10] : Fin 2 → List Byte) i) := fun _ => hline
  obtain ⟨ls, t, hrun, hdone⟩ := (serverOk_start hdev _ fun _ => []).exists_run_done hlines
  obtain ⟨-, -, finished, rest, d', horder, -, hserve, hrest, -, hpending⟩ :=
    server_contract fixedSizeLlseek hdev.shows rfl hrun
  obtain rfl : rest = [] := List.eq_nil_iff_forall_not_mem.mpr fun i hi =>
    (hpending i hi).1 (hdone i)
  rw [List.append_nil] at horder
  exact ⟨ls, t, d', hrun, hdone, hrest rfl, horder ▸ hserve⟩

end Aesd
