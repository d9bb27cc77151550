import Aesd.Driver.CommitDecision
import Aesd.Server.Session

set_option relaxedAutoImplicit false
set_option autoImplicit false

/-!
# What one step of a session does

A session is receiving its line until it takes the mutex, then writing it, then replying with the
commands the device holds. While everything that may fail succeeds, each step keeps the session in
its stage or takes it to the next one, and makes its remaining work smaller.

## Main definitions

* `Aesd.EchoLine` — the lines that are written to the device and echoed.
* `Aesd.Holds` — what the device has been given, between two calls.
* `Aesd.Receiving`, `Aesd.Writing`, `Aesd.Replying` — the stages of a session.
* `Aesd.Session.work` — a bound on the steps a session still takes.

## Main results

* `Aesd.Receiving.step`, `Aesd.Writing.step`, `Aesd.Replying.step` — one step in each stage.
-/

namespace Aesd

/-- A line that `read_until_term` returns whole, that is a C string and not a seek request. -/
structure EchoLine (line : List Byte) : Prop where
  terminated : Terminated newline line
  no_nul : 0 ∉ line
  not_seek : parseSeekto line = none

/-- Between two calls the device has been given these commands, and no bytes are pending. -/
structure Holds (dev : Driver) (cmds : List (List Byte)) : Prop where
  inv : ∃ q, Inv dev q []
  lock_eq : dev.lock = false
  contents_eq : dev.contents = logContents ⟨cmds, []⟩

variable {dev dev' : Driver} {cmds given : List (List Byte)} {line rest : List Byte}

/-! ## The device -/

/-- The C string is the whole line exactly if the line has no NUL. -/
lemma cString_eq_self_iff (bs : List Byte) : cString bs = bs ↔ 0 ∉ bs := by
  rw [cString, List.takeWhile_eq_self_iff]
  constructor
  · intro h h0
    simpa using h 0 h0
  · intro h c hc
    exact decide_eq_true fun h0 => h (h0 ▸ hc)

/-- The line is what `strlen` counts and `write` passes on. -/
lemma EchoLine.userBuf_eq (h : EchoLine line) :
    cString line = line ∧ (userBuf line).bytes = line := by
  refine ⟨(cString_eq_self_iff line).mpr h.no_nul, ?_⟩
  have hlen := h.terminated.length_lt
  apply List.take_of_length_le
  rw [maxRwCount]
  omega

/-- **A complete read of one byte**: the device delivers the byte at the position, if there is one.

**Proof sketch.** A read delivers a prefix of the commands from its position on. It delivers
something exactly if there is something, and at most the one byte asked for. -/
lemma Inv.deviceRead {q : List AesdBufferEntry} (hI : Inv dev q []) (hlock : dev.lock = false)
    {p : ℤ} (h0 : 0 ≤ p) (hlt : p < 2 ^ 63) {env : ReadEnv} (hint : env.interrupted = false)
    (huncopied : env.uncopied = 0) :
    Aesd.deviceRead dev (some p) env =
      match dev.commands.flatten.drop p.toNat with
      | [] => some (.eof, some p)
      | c :: _ => some (.byte c, some (p + 1)) := by
  have hread := aesdRead_spec hI hlock h0 hlt 1 hint
  have hprefix := Segments.readAt_prefix dev.commands p.toNat 1
  have hlen := Segments.length_readAt_le dev.commands p.toNat 1
  rw [huncopied] at hread
  cases hback : dev.commands.flatten.drop p.toNat with
  | nil =>
    have hnil : Segments.readAt dev.commands p.toNat 1 = [] :=
      (Segments.readAt_eq_nil Nat.one_pos).mpr (List.drop_eq_nil_iff.mp hback)
    rw [hnil] at hread
    rw [Aesd.deviceRead, hread]
    simp [readResult, ERESTARTSYS]
  | cons c back =>
    have hdata : Segments.readAt dev.commands p.toNat 1 = [c] := by
      cases hdata : Segments.readAt dev.commands p.toNat 1 with
      | nil =>
        have hle := List.drop_eq_nil_iff.mpr ((Segments.readAt_eq_nil Nat.one_pos).mp hdata)
        exact absurd (hback.symm.trans hle) (by simp)
      | cons b bs =>
        rw [hdata, hback] at hprefix
        rw [hdata, List.length_cons] at hlen
        obtain ⟨rfl, -⟩ := List.cons_prefix_cons.mp hprefix
        rw [List.length_eq_zero_iff.mp (show bs.length = 0 by omega)]
    rw [hdata] at hread
    rw [Aesd.deviceRead, hread]
    simp [readResult, ERESTARTSYS]

namespace Holds

/-- The device holds the last ten commands. -/
lemma commands_eq (h : Holds dev cmds) : dev.commands = cmds.rtake 10 :=
  congrArg Contents.commands h.contents_eq

lemma pending_eq (h : Holds dev cmds) : dev.pending = [] :=
  congrArg Contents.pending h.contents_eq

/-- A seek to `0` succeeds. -/
lemma seek (h : Holds dev cmds) (fsl : FixedSizeLlseek) (p : ℤ) :
    deviceSeek fsl dev (some p) = some 0 := by
  obtain ⟨q, hI⟩ := h.inv
  have hseek := aesdLlseek_set fsl hI p (Nat.zero_le dev.commands.flatten.length)
  rw [deviceSeek, Option.map_some]
  exact congrArg (fun r : ℤ × ℤ => some r.2) hseek

/-- The device after a complete read of one byte at a position within the commands. -/
lemma read (h : Holds dev cmds) {env : ReadEnv} (hint : env.interrupted = false)
    (huncopied : env.uncopied = 0) {front back : List Byte}
    (hsplit : (cmds.rtake 10).flatten = front ++ back) :
    deviceRead dev (some (front.length : ℤ)) env =
      match back with
      | [] => some (.eof, some (front.length : ℤ))
      | c :: _ => some (.byte c, some ((front.length + 1 : ℕ) : ℤ)) := by
  obtain ⟨q, hI⟩ := h.inv
  have hbound := hI.length_flatten_lt
  rw [h.commands_eq, hsplit, List.length_append] at hbound
  have hback : dev.commands.flatten.drop (front.length : ℤ).toNat = back := by
    rw [Int.toNat_natCast, h.commands_eq, hsplit, List.drop_left]
  rw [hI.deviceRead h.lock_eq (Int.natCast_nonneg front.length) (by omega) hint huncopied, hback]
  cases back <;> rfl

/-- A complete write of a line appends it to the commands. -/
lemma write (h : Holds dev cmds) (hline : EchoLine line) {p : ℤ} {env : WriteEnv}
    (ha : Allocates dev (userBuf (cString line)) env) (huncopied : env.uncopied = 0) :
    ∃ reply dev', aesdWrite dev p (userBuf (cString line)) env = some (reply, dev') ∧
      Holds dev' (cmds ++ [line]) := by
  obtain ⟨q, hI⟩ := h.inv
  obtain ⟨hstr, hbytes⟩ := hline.userBuf_eq
  rw [hstr] at ha ⊢
  obtain ⟨body, hends, -⟩ := hline.terminated.ends
  have hnl : newline ∈ line := by simp [hends]
  have hne : (userBuf line).bytes.length + dev.pending.length ≠ 0 := by
    have hpos := List.length_pos_of_mem hnl
    rw [hbytes]
    omega
  obtain ⟨found, dev', hfound, hrun, hstored⟩ := aesdWrite_of_allocates p hI h.lock_eq ha hne
  have hacc : accumulated dev (userBuf line) env = dev.pending ++ line := by
    simp [accumulated, WriteEnv.copied, huncopied, hbytes]
  rw [hacc] at hfound hstored
  obtain rfl : found = true := hfound.mpr (.inl (List.mem_append_right _ hnl))
  exact ⟨_, dev', hrun, hstored.inv, hstored.lock_eq.trans h.lock_eq,
    hstored.contents_eq h.contents_eq⟩

/-- A line that is written gets its allocations under some outcome. -/
lemma exists_allocates (h : Holds dev cmds) (hline : EchoLine line) :
    ∃ env, Allocates dev (userBuf (cString line)) env ∧ env.uncopied = 0 := by
  obtain ⟨q, hI⟩ := h.inv
  obtain ⟨hstr, hbytes⟩ := hline.userBuf_eq
  have hlen := hline.terminated.length_lt
  obtain ⟨env, ha, -, huncopied⟩ := Aesd.exists_allocates hI (userBuf line) (fun _ => 0) 0 (by
    rw [hbytes, h.pending_eq, kmallocMaxSize, List.length_nil]
    omega)
  exact ⟨env, hstr.symm ▸ ha, huncopied⟩

end Holds

/-! ## Stages -/

/-- The session has not taken the mutex: it is receiving the line, or has received it. -/
def Receiving (line rest : List Byte) (s : Session) : Prop :=
  s.sent = [] ∧
    match s.pc with
    | .callRecv => s.client = line ++ rest
    | .recv st => RutOk st ∧ ∃ c tail, line = st.stored ++ c :: tail ∧ s.client = c :: tail ++ rest
    | .takeMutex received => received.bytes = line
    | _ => False

/-- The session has taken the mutex and is about to write the line. -/
def Writing (line : List Byte) (s : Session) : Prop :=
  s.sent = [] ∧
    match s.pc with
    | .openDevice received => received.bytes = line
    | .seekWrite received => received.bytes = line ∧ s.fPos = some 0
    | .write received => received.bytes = line ∧ s.fPos = some 0
    | _ => False

/-- The session has sent the commands `done` and has read `part` of the next one. -/
structure AtReply (cmds : List (List Byte)) (s : Session) (part : List Byte)
    (done todo : List (List Byte)) : Prop where
  cmds_eq : cmds = done ++ todo
  sent_eq : s.sent = done.flatten
  fPos_eq : s.fPos = some ((s.sent ++ part).length : ℤ)

/-- The session has written the line and is replying with the commands `cmds`. -/
def Replying (cmds : List (List Byte)) (s : Session) : Prop :=
  match s.pc with
  | .seekRead => s.sent = [] ∧ s.fPos.isSome
  | .callRead => ∃ done todo, AtReply cmds s [] done todo
  | .read st => RutOk st ∧
      ((AtReply cmds s [] cmds [] ∧ st.stored = []) ∨
        ∃ done c tail todo, AtReply cmds s st.stored done ((st.stored ++ c :: tail) :: todo))
  | .send line => ∃ done todo, AtReply cmds s line.bytes done (line.bytes :: todo)
  | .closeDevice => s.sent = cmds.flatten
  | .unlock => s.sent = cmds.flatten
  | _ => False

/-- A bound on the number of steps a session still takes, when it replies with at most `total`
bytes. -/
def Session.work (total : ℕ) (s : Session) : ℕ :=
  match s.pc with
  | .callRecv => s.client.length + (3 * total + 12)
  | .recv _ => s.client.length + (3 * total + 11)
  | .takeMutex _ => 3 * total + 10
  | .openDevice _ => 3 * total + 9
  | .seekWrite _ => 3 * total + 8
  | .write _ => 3 * total + 7
  | .seekRead => 3 * total + 6
  | .ioctl _ => 3 * total + 6
  | .callRead => 3 * (total - s.sent.length) + 5
  | .read st => 3 * (total - (s.sent ++ st.stored).length) + 4
  | .send line => 3 * (total - (s.sent ++ line.bytes).length) + 6
  | .closeDevice => 2
  | .unlock => 1
  | .done => 0

variable {ι : Type} {fsl : FixedSizeLlseek} {i : ι} {g g' : Shared ι} {s s' : Session} {e : Event}

/-- **A step of a session that is receiving** is a step of receiving, or takes the mutex.

**Proof sketch.** One case for each place of the session; the outcome of the step is the one of
that place. In the loop the next byte of the client is the next byte of the line. -/
lemma Receiving.step (hline : EchoLine line) (hs : Receiving line rest s)
    (he : e.Succeeds g.dev s.pc) (h : sessionStep fsl i g s e = some (g', s')) (total : ℕ) :
    s'.work total < s.work total ∧
      ((e ≠ .lock true ∧ g' = g ∧ Receiving line rest s') ∨
        (e = .lock true ∧ g.mutex = none ∧ g' = { g with mutex := some i } ∧ Writing line s')) := by
  obtain ⟨hsent, hat⟩ := hs
  cases sessionStep_move h with
  | @callRecv choice hpc =>
    simp only [hpc] at hat
    obtain ⟨before, rfl⟩ := Option.isSome_iff_exists.mp he
    obtain ⟨st, hmalloc, hstored, hok⟩ := rutMalloc_some s.flag before
    obtain ⟨c, tail, hcons⟩ := hline.terminated.exists_cons
    rw [hmalloc]
    refine ⟨?_, .inl ⟨by simp, rfl, hsent, hok, c, tail, ?_, ?_⟩⟩
    · simp only [Session.afterRecv, Session.work, hpc]
      omega
    · rw [hstored, hcons, List.nil_append]
    · rw [← hcons]
      exact hat
  | recvFull hpc hgrow =>
    simp only [hpc] at hat
    obtain ⟨hok, c, tail, hsplit, -⟩ := hat
    obtain ⟨st₁, hst₁, -⟩ := rutStep_line hline.terminated hok hsplit he.1
    exact absurd (hgrow.symm.trans hst₁) (by simp)
  | @recv st st₁ env outcome hpc hgrow =>
    simp only [hpc] at hat
    obtain ⟨hsome, rfl⟩ := he
    obtain ⟨hok, c, tail, hsplit, hclient⟩ := hat
    obtain ⟨st₂, hst₂, hstep⟩ := rutStep_line hline.terminated hok hsplit hsome
    obtain rfl := Option.some.inj (hgrow.symm.trans hst₂)
    rw [hclient, List.cons_append, clientRead]
    rcases hstep with ⟨htail, cap, hret⟩ | ⟨htail, st', hrun, hstored, hok'⟩
    · rw [hret]
      refine ⟨?_, .inl ⟨by simp, rfl, hsent, rfl⟩⟩
      simp only [Session.afterRecv, Session.work, hpc]
      omega
    · rw [hrun]
      obtain ⟨b, more, rfl⟩ := List.exists_cons_of_ne_nil htail
      refine ⟨?_, .inl ⟨by simp, rfl, hsent, hok', b, more, ?_, rfl⟩⟩
      · simp only [Session.afterRecv, Session.work, hpc, hclient, List.length_append,
          List.length_cons]
        omega
      · rw [hstored, hsplit, List.append_assoc, List.singleton_append]
  | lock hpc hfree =>
    simp only [hpc] at hat
    refine ⟨?_, .inr ⟨rfl, hfree, rfl, hsent, hat⟩⟩
    simp only [Session.work, hpc]
    omega
  | lockFailed hpc => exact absurd he (by simp [Event.Succeeds])
  | _ hpc => simp only [hpc] at hat

/-- **A step of a session that is writing** is a step of writing, or writes the line. -/
lemma Writing.step (hline : EchoLine line) (hdev : Holds g.dev cmds) (hs : Writing line s)
    (he : e.Succeeds g.dev s.pc) (h : sessionStep fsl i g s e = some (g', s')) (total : ℕ) :
    s'.work total < s.work total ∧ e ≠ .lock true ∧
      ((g' = g ∧ Writing line s') ∨
        (g'.mutex = g.mutex ∧ Holds g'.dev (cmds ++ [line]) ∧
          Replying ((cmds ++ [line]).rtake 10) s')) := by
  obtain ⟨hsent, hat⟩ := hs
  cases sessionStep_move h with
  | @openDevice received opened hpc =>
    simp only [hpc] at hat
    obtain rfl : opened = true := he
    rw [afterOpen, hat, hline.not_seek]
    refine ⟨?_, by simp, .inl ⟨rfl, hsent, hat, rfl⟩⟩
    simp only [Session.work, hpc]
    omega
  | seekWrite hpc =>
    simp only [hpc] at hat
    obtain ⟨hreceived, hpos⟩ := hat
    rw [hpos, hdev.seek]
    refine ⟨?_, by simp, .inl ⟨rfl, hsent, hreceived, rfl⟩⟩
    simp only [Session.work, hpc]
    omega
  | writeClosed hpc hnone =>
    simp only [hpc, hnone] at hat
    exact absurd hat.2 (by simp)
  | @write received env p reply dev' hpc hpos hwrite =>
    simp only [hpc] at hat
    simp only [Event.Succeeds, hpc] at he
    obtain ⟨rfl, -⟩ := hat
    obtain ⟨ha, huncopied⟩ := he
    obtain ⟨reply', dev₂, hwrite', hdev'⟩ := hdev.write (p := p) hline ha huncopied
    obtain ⟨rfl, rfl⟩ := Prod.mk.inj (Option.some.inj (hwrite.symm.trans hwrite'))
    refine ⟨?_, by simp, .inr ⟨rfl, hdev', hsent, rfl⟩⟩
    simp only [Session.work, hpc]
    omega
  | _ hpc => simp only [hpc] at hat

/-- At the end of the commands the device delivers nothing. -/
lemma AtReply.read_end (hat : AtReply cmds s [] cmds []) (hdev : Holds dev given)
    (hcmds : given.rtake 10 = cmds) {env : ReadEnv} (hint : env.interrupted = false)
    (huncopied : env.uncopied = 0) : deviceRead dev s.fPos env = some (.eof, s.fPos) := by
  have hsplit : (given.rtake 10).flatten = s.sent ++ [] := by
    rw [hcmds, hat.sent_eq, List.append_nil]
  rw [hat.fPos_eq, List.append_nil]
  exact hdev.read hint huncopied hsplit

/-- In the middle of a command the device delivers its next byte. -/
lemma AtReply.read_byte {part tail : List Byte} {c : Byte} {done todo : List (List Byte)}
    (hat : AtReply cmds s part done ((part ++ c :: tail) :: todo)) (hdev : Holds dev given)
    (hcmds : given.rtake 10 = cmds) {env : ReadEnv} (hint : env.interrupted = false)
    (huncopied : env.uncopied = 0) :
    (s.sent ++ part).length < cmds.flatten.length ∧
      deviceRead dev s.fPos env = some (.byte c, some ((s.sent ++ (part ++ [c])).length : ℤ)) := by
  have hsplit : cmds.flatten = (s.sent ++ part) ++ c :: (tail ++ todo.flatten) := by
    rw [hat.cmds_eq, hat.sent_eq]
    simp
  constructor
  · rw [hsplit, List.length_append, List.length_append, List.length_append, List.length_cons]
    omega
  · have hlen : (s.sent ++ (part ++ [c])).length = (s.sent ++ part).length + 1 := by
      rw [← List.append_assoc, List.length_append, List.length_singleton]
    rw [hat.fPos_eq, hdev.read hint huncopied (hcmds.symm ▸ hsplit), hlen]

/-- While the session replies the buffer can grow. -/
lemma Replying.rutGrow_isSome {st : RutState} {env : IterEnv} (hpc : s.pc = .read st)
    (hlines : ∀ c ∈ cmds, EchoLine c) (hs : Replying cmds s) (henv : env.grow.isSome) :
    (rutGrow env st).isSome := by
  simp only [Replying, hpc] at hs
  obtain ⟨hok, ⟨-, hstored⟩ | ⟨done, c, tail, todo, hat⟩⟩ := hs
  · have hlen : st.stored.length < 2 ^ 30 - 1 := by
      rw [hstored]
      exact Nat.zero_lt_succ _
    obtain ⟨st₁, hst₁, -⟩ := rutGrow_ok hok hlen henv
    rw [hst₁]
    rfl
  · have hcmd := hlines (st.stored ++ c :: tail) (by rw [hat.cmds_eq]; simp)
    obtain ⟨st₁, hst₁, -⟩ := rutStep_line hcmd.terminated hok rfl henv
    rw [hst₁]
    rfl

/-- **One iteration of the reply loop.** The device delivers the next byte of the commands: it
belongs to the command the session is reading, or there is none and the reply is complete. -/
lemma Replying.step_read {st st₁ : RutState} {env : IterEnv} {readEnv : ReadEnv} {r : ReadResult}
    {fPos : Option ℤ} (hpc : s.pc = .read st) (hdev : Holds g.dev given)
    (hcmds : given.rtake 10 = cmds) (hlines : ∀ c ∈ cmds, EchoLine c) (hs : Replying cmds s)
    (he : env.grow.isSome ∧ readEnv.interrupted = false ∧ readEnv.uncopied = 0)
    (hgrow : rutGrow env st = some st₁) (hread : deviceRead g.dev s.fPos readEnv = some (r, fPos))
    {total : ℕ} (htotal : cmds.flatten.length ≤ total) :
    ({ s with fPos }.afterRead (rutConsume newline env r st₁)).work total < s.work total ∧
      Replying cmds ({ s with fPos }.afterRead (rutConsume newline env r st₁)) := by
  obtain ⟨hsome, hint, huncopied⟩ := he
  simp only [Replying, hpc] at hs
  obtain ⟨hok, ⟨hat, hstored⟩ | ⟨done, c, tail, todo, hat⟩⟩ := hs
  · have hlen : st.stored.length < 2 ^ 30 - 1 := by
      rw [hstored]
      exact Nat.zero_lt_succ _
    obtain ⟨st₂, hst₂, hstored₂, hok₂, -⟩ := rutGrow_ok hok hlen hsome
    obtain rfl := Option.some.inj (hgrow.symm.trans hst₂)
    rw [hat.read_end hdev hcmds hint huncopied] at hread
    obtain ⟨rfl, rfl⟩ := Prod.mk.inj (Option.some.inj hread)
    rw [rutConsume_eof hok₂ (hstored₂.trans hstored), Session.afterRead_eof]
    refine ⟨?_, hat.sent_eq⟩
    simp only [Session.work, hpc]
    omega
  · obtain ⟨hmore, hbyte⟩ := hat.read_byte hdev hcmds hint huncopied
    rw [hbyte] at hread
    obtain ⟨rfl, rfl⟩ := Prod.mk.inj (Option.some.inj hread)
    have hcmd := hlines (st.stored ++ c :: tail) (by rw [hat.cmds_eq]; simp)
    obtain ⟨st₂, hst₂, hstep⟩ := rutStep_line hcmd.terminated hok rfl hsome
    obtain rfl := Option.some.inj (hgrow.symm.trans hst₂)
    rcases hstep with ⟨rfl, cap, hret⟩ | ⟨htail, st', hrun, hstored, hok'⟩
    · rw [hret, Session.afterRead_line]
      refine ⟨?_, done, todo, hat.cmds_eq, hat.sent_eq, rfl⟩
      simp only [Session.work, hpc, List.length_append, List.length_singleton] at hmore ⊢
      omega
    · simp only [hrun, Session.afterRead]
      obtain ⟨b, more, rfl⟩ := List.exists_cons_of_ne_nil htail
      refine ⟨?_, hok', .inr ⟨done, b, more, todo, ?_⟩⟩
      · simp only [Session.work, hpc, hstored, List.length_append, List.length_singleton]
          at hmore ⊢
        omega
      · rw [hstored, List.append_assoc]
        exact ⟨hat.cmds_eq, hat.sent_eq, rfl⟩

/-- **A step of a session that is replying** is a step of replying, or releases the mutex after
the whole reply.

**Proof sketch.** One case for each place of the session. Before a command is read the session
is between two commands; a complete command is sent as it is. -/
lemma Replying.step (hdev : Holds g.dev given) (hcmds : given.rtake 10 = cmds)
    (hlines : ∀ c ∈ cmds, EchoLine c) (hs : Replying cmds s) (he : e.Succeeds g.dev s.pc)
    (h : sessionStep fsl i g s e = some (g', s')) {total : ℕ}
    (htotal : cmds.flatten.length ≤ total) :
    s'.work total < s.work total ∧ e ≠ .lock true ∧
      ((g' = g ∧ Replying cmds s') ∨
        (g' = { g with mutex := none } ∧ s'.pc = .done ∧ s'.sent = cmds.flatten)) := by
  cases sessionStep_move h with
  | seekRead hpc =>
    simp only [Replying, hpc] at hs
    obtain ⟨hsent, hopen⟩ := hs
    obtain ⟨p, hp⟩ := Option.isSome_iff_exists.mp hopen
    rw [hp, hdev.seek]
    refine ⟨?_, by simp, .inl ⟨rfl, [], cmds, rfl, hsent, ?_⟩⟩
    · simp only [Session.work, hpc, hsent, List.length_nil]
      omega
    · rw [hsent]
      rfl
  | @callRead choice hpc =>
    simp only [Replying, hpc] at hs
    obtain ⟨before, rfl⟩ := Option.isSome_iff_exists.mp he
    obtain ⟨st, hmalloc, hstored, hok⟩ := rutMalloc_some s.flag before
    obtain ⟨done, todo, hcmds, hsent, hpos⟩ := hs
    rw [hmalloc]
    refine ⟨?_, by simp, .inl ⟨rfl, hok, ?_⟩⟩
    · simp only [Session.afterRead, Session.work, hpc, hstored, List.append_nil]
      omega
    · cases todo with
      | nil =>
        rw [List.append_nil] at hcmds
        exact .inl ⟨⟨by rw [List.append_nil], by rw [hcmds]; exact hsent, hpos⟩, hstored⟩
      | cons cmd todo =>
        have hcmd := hlines cmd (by rw [hcmds]; simp)
        obtain ⟨c, tail, rfl⟩ := hcmd.terminated.exists_cons
        refine .inr ⟨done, c, tail, todo, ?_⟩
        rw [hstored]
        exact ⟨hcmds, hsent, hpos⟩
  | readFull hpc hgrow =>
    have hsome := hs.rutGrow_isSome hpc hlines he.1
    rw [hgrow] at hsome
    exact absurd hsome Bool.false_ne_true
  | read hpc hgrow hread =>
    obtain ⟨hwork, hs'⟩ := hs.step_read hpc hdev hcmds hlines he hgrow hread htotal
    exact ⟨hwork, by simp, .inl ⟨rfl, hs'⟩⟩
  | @send line n hpc =>
    simp only [Replying, hpc] at hs
    obtain ⟨done, todo, hsplit, hsent, hpos⟩ := hs
    have hstr := (hlines line.bytes (by rw [hsplit]; simp)).userBuf_eq.1
    have hn : n = some line.bytes.length := by
      rw [← hstr]
      simpa only [Event.Succeeds, hpc] using he
    rw [hstr, hn, Option.getD_some, List.take_length]
    refine ⟨?_, by simp, .inl ⟨rfl, done ++ [line.bytes], todo, ?_, ?_, ?_⟩⟩
    · simp only [Session.work, hpc]
      omega
    · rw [hsplit, List.append_assoc, List.singleton_append]
    · rw [List.flatten_concat]
      exact congrArg (· ++ line.bytes) hsent
    · rw [List.append_nil]
      exact hpos
  | closeDevice hpc =>
    simp only [Replying, hpc] at hs
    refine ⟨?_, by simp, .inl ⟨rfl, hs⟩⟩
    simp only [Session.work, hpc]
    omega
  | unlock hpc =>
    simp only [Replying, hpc] at hs
    refine ⟨?_, by simp, .inr ⟨rfl, rfl, hs⟩⟩
    simp only [Session.work, hpc]
    omega
  | unlockFailed hpc => exact absurd he (by simp [Event.Succeeds])
  | _ hpc => simp only [Replying, hpc] at hs

/-! ## The write -/

/-- What the next step of the session passes to `write`: `writer_func_fd` takes the length of its
string with `strlen`. -/
def Session.written (s : Session) : Option (List Byte) :=
  match s.pc with
  | .write line => some (cString line.bytes)
  | _ => none

/-- The session passes these bytes to `write`: whatever the device and the outcome, its next step is
the write of them at its position, and no write if the device is not open. -/
structure PassesToWrite (fsl : FixedSizeLlseek) (i : ι) (s : Session) (bytes : List Byte) :
    Prop where
  written_eq : s.written = some bytes
  step_eq : ∀ (g : Shared ι) (env : WriteEnv), sessionStep fsl i g s (.write env) =
    match s.fPos with
    | none => some (g, { s with pc := .seekRead })
    | some p => (aesdWrite g.dev p (userBuf bytes) env).map fun r =>
      ({ g with dev := r.2 }, { s with pc := .seekRead, fPos := some r.1.fPos })

/-- **The write of a session** passes on its line as a C string. -/
lemma passesToWrite (fsl : FixedSizeLlseek) (i : ι) {line : Line} (hpc : s.pc = .write line) :
    PassesToWrite fsl i s (cString line.bytes) where
  written_eq := by rw [Session.written, hpc]
  step_eq g env := by
    cases hpos : s.fPos <;> simp only [sessionStep, hpc, hpos]

/-! ## Enabled steps -/

/-- A step in which everything succeeds is possible. -/
def Enabled (fsl : FixedSizeLlseek) (i : ι) (g : Shared ι) (s : Session) : Prop :=
  ∃ e : Event, e.Succeeds g.dev s.pc ∧ (sessionStep fsl i g s e).isSome

/-- An allocation that succeeds. -/
def grown : IterEnv := ⟨some 0, true⟩

/-- A session that is receiving can go on while the mutex is free. -/
lemma Receiving.enabled (hs : Receiving line rest s) (hfree : g.mutex = none) :
    Enabled fsl i g s := by
  obtain ⟨pc, client, fPos, flag, sent, ok, complete⟩ := s
  cases pc with
  | callRecv => exact ⟨.malloc (some 0), rfl, rfl⟩
  | recv st =>
    refine ⟨.recv grown .ok, ⟨rfl, rfl⟩, ?_⟩
    simp only [sessionStep]
    cases rutGrow grown st <;> rfl
  | takeMutex received =>
    refine ⟨.lock true, rfl, ?_⟩
    simp [sessionStep, hfree]
  | _ => exact hs.2.elim

/-- A session that is writing can go on. -/
lemma Writing.enabled (hline : EchoLine line) (hdev : Holds g.dev cmds) (hs : Writing line s) :
    Enabled fsl i g s := by
  obtain ⟨pc, client, fPos, flag, sent, ok, complete⟩ := s
  cases pc with
  | openDevice received => exact ⟨.openDevice true, rfl, rfl⟩
  | seekWrite received => exact ⟨.lseek, trivial, rfl⟩
  | write received =>
    obtain ⟨-, hreceived, hpos⟩ := hs
    obtain rfl : received.bytes = line := hreceived
    obtain ⟨env, ha, huncopied⟩ := hdev.exists_allocates hline
    obtain ⟨reply, dev', hwrite, -⟩ := hdev.write (p := 0) hline ha huncopied
    refine ⟨.write env, ⟨ha, huncopied⟩, ?_⟩
    simp only [sessionStep, show fPos = some 0 from hpos, hwrite]
    rfl
  | _ => exact hs.2.elim

/-- A session that is replying can go on. -/
lemma Replying.enabled (hdev : Holds g.dev given) (hcmds : given.rtake 10 = cmds)
    (hs : Replying cmds s) : Enabled fsl i g s := by
  obtain ⟨pc, client, fPos, flag, sent, ok, complete⟩ := s
  cases pc with
  | seekRead => exact ⟨.lseek, trivial, rfl⟩
  | callRead => exact ⟨.malloc (some 0), rfl, rfl⟩
  | read st =>
    refine ⟨.read grown ⟨false, 0⟩, ⟨rfl, rfl, rfl⟩, ?_⟩
    have hread : (deviceRead g.dev fPos ⟨false, 0⟩).isSome := by
      obtain ⟨-, ⟨hat, -⟩ | ⟨done, c, tail, todo, hat⟩⟩ := hs
      · exact Option.isSome_iff_exists.mpr ⟨_, hat.read_end hdev hcmds rfl rfl⟩
      · exact Option.isSome_iff_exists.mpr ⟨_, (hat.read_byte hdev hcmds rfl rfl).2⟩
    simp only [sessionStep]
    cases rutGrow grown st with
    | none => rfl
    | some st₁ =>
      rw [Option.isSome_map]
      exact hread
  | send line => exact ⟨.send (some (cString line.bytes).length), rfl, rfl⟩
  | closeDevice => exact ⟨.closeDevice, trivial, rfl⟩
  | unlock => exact ⟨.unlock true, rfl, rfl⟩
  | _ => exact hs.elim

end Aesd
