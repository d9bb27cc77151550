import Aesd.Driver.Calls
import Aesd.Lib.Pieces
import Aesd.Server.ReadCall
import Aesd.Server.SessionSpec

set_option relaxedAutoImplicit false
set_option autoImplicit false

/-!
# What a session transfers

A session writes the line it has received to the device, and its reply loop sends its client what
the device holds from its position on. Both pass a C string on: `writer_func_fd` and the reply loop
take its length with `strlen`, although `read_until_term` has reported the number of bytes. The
reply loop sends a piece only if it ends in a newline; a last piece without one is read, and not
sent.

## Main definitions

* `Aesd.SuccessfulRun` — the runs of one session in which everything succeeds.
* `Aesd.Writes` — the bytes that a session passes to `write`.
* `Aesd.RepliesEnd`, `Aesd.SendsRest` — the reply comes to its end; it is the rest of the device.

## Main results

* `Aesd.Received.step` — what has been received before the write.
* `Aesd.RepliesFrom.step` — a step of the reply loop.
* `Aesd.session_transfer` — when the session transfers the bytes faithfully.
-/

namespace Aesd

open Transition

variable {ι : Type}

/-- One step of session `i`, while no other session changes what they share. -/
def SessionStep (fsl : FixedSizeLlseek) (i : ι) (x : Shared ι × Session) (e : Event)
    (y : Shared ι × Session) : Prop :=
  sessionStep fsl i x.1 x.2 e = some y

/-- The runs of session `i` in which everything that may fail succeeds. -/
abbrev SuccessfulRun (fsl : FixedSizeLlseek) (i : ι) :
    Shared ι × Session → List Event → Shared ι × Session → Prop :=
  Run (guarded (fun x e => e.Succeeds x.1.dev x.2.pc) (SessionStep fsl i))

/-- The bytes of the device from a position to the end of the file. -/
def Driver.bytesFrom (dev : Driver) (p : ℤ) : List Byte := dev.commands.flatten.drop p.toNat

/-- Whenever the session is about to write, the device is open and `write` is passed these bytes. -/
def Writes (fsl : FixedSizeLlseek) (i : ι) (g : Shared ι) (client bytes : List Byte) : Prop :=
  ∀ ls g' s' line, SuccessfulRun fsl i (g, .start client) ls (g', s') → s'.pc = .write line →
    s'.fPos.isSome ∧ PassesToWrite fsl i s' bytes

/-- The session is about to reply from the position. -/
structure StartsReply (p : ℤ) (s : Session) : Prop where
  pc_eq : s.pc = .callRead
  fPos_eq : s.fPos = some p
  sent_eq : s.sent = []

/-- Every run from the start of the reply can go on until the session is done, and their lengths are
bounded. -/
def RepliesEnd (fsl : FixedSizeLlseek) (i : ι) (g : Shared ι) (p : ℤ) : Prop :=
  ∀ s, StartsReply p s →
    (∃ n, ∀ ls x, SuccessfulRun fsl i (g, s) ls x → ls.length ≤ n) ∧
      ∀ ls x, SuccessfulRun fsl i (g, s) ls x →
        ∃ ls' y, SuccessfulRun fsl i x ls' y ∧ y.2.pc = .done

/-- A session that is done with its reply has sent all bytes of the device from the position on, in
order and once. -/
def SendsRest (fsl : FixedSizeLlseek) (i : ι) (g : Shared ι) (p : ℤ) : Prop :=
  ∀ s, StartsReply p s → ∀ ls g' s', SuccessfulRun fsl i (g, s) ls (g', s') → s'.pc = .done →
    s'.sent = g.dev.bytesFrom p

variable {fsl : FixedSizeLlseek} {i : ι} {g g' : Shared ι} {s s' : Session} {e : Event}
  {client : List Byte} {p : ℤ}

/-- A C string has no NUL. -/
lemma zero_not_mem_cString (bs : List Byte) : 0 ∉ cString bs := by
  intro h
  have := List.mem_takeWhile_imp h
  simp at this

/-! ## Receiving -/

/-- Until the write, the session has stored what it has read of its client, and the line is the
first piece of it. It writes to the device it has opened. -/
def Received (client : List Byte) (s : Session) : Prop :=
  match s.pc with
  | .callRecv => s.client = client
  | .recv st => RutInv newline st ∧ client = st.stored ++ s.client
  | .takeMutex line | .openDevice line => (Pieces.split newline client).head? = some line.bytes
  | .seekWrite line | .write line =>
    (Pieces.split newline client).head? = some line.bytes ∧ s.fPos.isSome
  | _ => True

/-- Nothing is received while the reply is read. -/
lemma received_afterRead (s : Session) (o : RutOutcome) : Received client (s.afterRead o) := by
  unfold Session.afterRead
  split
  · exact trivial
  · split_ifs
    · exact trivial
    · split <;> exact trivial
    · exact trivial

/-- **A step keeps what has been received.**

**Proof sketch.** One case for each move. An iteration stores the next byte of the client; a newline
or the end of the file completes the first piece. After the write there is nothing to show. -/
lemma Received.step (hs : Received client s) (he : e.Succeeds g.dev s.pc)
    (h : sessionStep fsl i g s e = some (g', s')) : Received client s' := by
  cases sessionStep_move h with
  | callRecv hpc =>
    simp only [Received, hpc] at hs
    rename_i choice
    rcases rutMalloc_cases newline s.flag choice with
      ⟨-, hret⟩ | ⟨before, st, -, hret, hstored, -, -, hst⟩ <;> rw [hret]
    · exact trivial
    · refine ⟨hst, ?_⟩
      rw [hstored, List.nil_append]
      exact hs.symm
  | recvFull hpc hgrow => exact trivial
  | @recv st st₁ env outcome hpc hgrow =>
    obtain ⟨-, rfl⟩ := he
    simp only [Received, hpc] at hs
    obtain ⟨hst, hclient⟩ := hs
    obtain ⟨hst₁, hstored, -, hroom, -, -⟩ := rutGrow_some hst hgrow
    rw [← hstored] at hclient
    cases hleft : s.client with
    | nil =>
      rw [hleft, List.append_nil] at hclient
      rcases rutConsume_eof_cases env hst₁ with ⟨-, hret⟩ | ⟨hne, line, hret, hline, -⟩ <;>
        simp only [clientRead, hret]
      · exact trivial
      · show (Pieces.split newline client).head? = some line.bytes
        rw [hclient, hline, Pieces.split_of_not_mem hst₁.not_mem hne]
        rfl
    | cons c left =>
      rw [hleft] at hclient
      rcases rutConsume_byte_cases env hst₁ hroom c with
        ⟨rfl, line, hret, hline, -⟩ | ⟨-, st₂, hret, hstored₂, hst₂⟩ <;> simp only [clientRead, hret]
      · show (Pieces.split newline client).head? = some line.bytes
        rw [hclient, hline, Pieces.split_append hst₁.not_mem]
        rfl
      · refine ⟨hst₂, ?_⟩
        rw [hstored₂, hclient, List.append_assoc, List.singleton_append]
        rfl
  | lock hpc hfree =>
    simp only [Received, hpc] at hs
    exact hs
  | @openDevice line opened hpc =>
    obtain rfl : opened = true := he
    simp only [Received, hpc] at hs
    cases hseek : parseSeekto line.bytes <;> simp only [afterOpen, Received, hseek]
    exact ⟨hs, rfl⟩
  | seekWrite hpc =>
    simp only [Received, hpc] at hs
    refine ⟨hs.1, ?_⟩
    rw [deviceSeek, Option.isSome_map]
    exact hs.2
  | callRead hpc => exact received_afterRead _ _
  | readFull hpc hgrow => exact received_afterRead _ _
  | read hpc hgrow hread => exact received_afterRead _ _
  | _ => exact trivial

/-- In every successful run the session has received the first piece before it writes. -/
lemma received_of_run {ls : List Event} (h : SuccessfulRun fsl i (g, .start client) ls (g', s')) :
    Received client s' := by
  refine h.invariant (I := fun x => Received client x.2) ?_ ?_
  · exact rfl
  · intro x e y hx hstep
    exact Received.step hx hstep.1 hstep.2

/-- The session has not written yet, and the mutex is free until it takes it. -/
def BeforeWrite (x : Shared ι × Session) : Prop :=
  match x.2.pc with
  | .callRecv | .recv _ | .takeMutex _ => x.1.mutex = none
  | .openDevice _ | .seekWrite _ | .write _ => True
  | _ => False

/-- The buffer can grow while a piece is read that fits the largest buffer. -/
lemma rutGrow_ne_none {env : IterEnv} {st : RutState} (hst : RutInv newline st) (left : List Byte)
    (hlen : ∀ piece, (Pieces.split newline (st.stored ++ left)).head? = some piece →
      piece.length < 2 ^ 30 - 1)
    (henv : env.grow.isSome) : rutGrow env st ≠ none := by
  intro hnone
  rcases rutGrow_none hst hnone with hfail | hlong
  · rw [hfail] at henv
    exact absurd henv (by simp)
  · have hne : st.stored ≠ [] := by
      intro hnil
      rw [hnil] at hlong
      exact absurd hlong (by decide)
    obtain ⟨piece, hpiece, hle⟩ := Pieces.exists_head_split hst.not_mem hne left
    have hlt := hlen piece hpiece
    omega

/-- **A step before the write** is one step closer to it, if the line fits the largest buffer and is
not a seek request.

**Proof sketch.** The buffer can grow because the bytes stored are part of the first piece, and the
read at the end of the file returns a line because the client has sent something. -/
lemma BeforeWrite.step {piece : List Byte} (hx : BeforeWrite (g, s)) (hs : Received client s)
    (hpiece : (Pieces.split newline client).head? = some piece)
    (hlen : piece.length < 2 ^ 30 - 1) (hseek : parseSeekto piece = none)
    (hnot : ¬∃ line, s.pc = .write line) (he : e.Succeeds g.dev s.pc)
    (h : sessionStep fsl i g s e = some (g', s')) :
    BeforeWrite (g', s') ∧ s'.work 0 < s.work 0 := by
  cases sessionStep_move h with
  | @callRecv choice hpc =>
    simp only [BeforeWrite, hpc] at hx
    rcases rutMalloc_cases newline s.flag choice with ⟨rfl, -⟩ | ⟨before, st, -, hret, -⟩
    · exact absurd he (by simp [Event.Succeeds])
    · rw [hret]
      refine ⟨hx, ?_⟩
      simp only [Session.afterRecv, Session.work, hpc]
      omega
  | recvFull hpc hgrow =>
    simp only [Received, hpc] at hs
    refine absurd hgrow (rutGrow_ne_none hs.1 s.client (fun first hfirst => ?_) he.1)
    rw [← hs.2] at hfirst
    rw [← Option.some.inj (hpiece.symm.trans hfirst)]
    exact hlen
  | @recv st st₁ env outcome hpc hgrow =>
    obtain ⟨-, rfl⟩ := he
    simp only [BeforeWrite, hpc] at hx
    simp only [Received, hpc] at hs
    obtain ⟨hst, hclient⟩ := hs
    obtain ⟨hst₁, hstored, -, hroom, -, -⟩ := rutGrow_some hst hgrow
    cases hleft : s.client with
    | nil =>
      rcases rutConsume_eof_cases env hst₁ with ⟨hnil, -⟩ | ⟨-, line, hret, -⟩
      · rw [hclient, hleft, ← hstored, hnil] at hpiece
        exact absurd hpiece (by simp [Pieces.split])
      · simp only [clientRead, hret]
        refine ⟨hx, ?_⟩
        simp only [Session.afterRecv, Session.work, hpc]
        omega
    | cons c left =>
      rcases rutConsume_byte_cases env hst₁ hroom c with
        ⟨-, line, hret, -⟩ | ⟨-, st₂, hret, -⟩ <;> simp only [clientRead, hret] <;>
        refine ⟨hx, ?_⟩ <;> simp only [Session.afterRecv, Session.work, hpc, hleft] <;>
        rw [List.length_cons] <;> omega
  | lock hpc hfree =>
    refine ⟨trivial, ?_⟩
    simp only [Session.work, hpc]
    omega
  | lockFailed hpc => exact absurd he (by simp [Event.Succeeds])
  | @openDevice line opened hpc =>
    simp only [Received, hpc] at hs
    have hline : parseSeekto line.bytes = none := by
      rw [← Option.some.inj (hpiece.symm.trans hs)]
      exact hseek
    simp only [afterOpen, hline]
    refine ⟨trivial, ?_⟩
    simp only [Session.work, hpc]
    omega
  | seekWrite hpc =>
    refine ⟨trivial, ?_⟩
    simp only [Session.work, hpc]
    omega
  | writeClosed hpc | write hpc => exact absurd ⟨_, hpc⟩ hnot
  | _ hpc => simp only [BeforeWrite, hpc] at hx

/-- Before the write the session can go on. -/
lemma BeforeWrite.enabled (fsl : FixedSizeLlseek) (i : ι) (hx : BeforeWrite (g, s))
    (hnot : ¬∃ line, s.pc = .write line) : Enabled fsl i g s := by
  obtain ⟨pc, left, fPos, flag, sent, ok, complete⟩ := s
  cases pc with
  | callRecv => exact ⟨.malloc (some 0), rfl, rfl⟩
  | recv st =>
    refine ⟨.recv grown .ok, ⟨rfl, rfl⟩, ?_⟩
    simp only [sessionStep]
    cases rutGrow grown st <;> rfl
  | takeMutex line =>
    refine ⟨.lock true, rfl, ?_⟩
    simp [sessionStep, show g.mutex = none from hx]
  | openDevice line => exact ⟨.openDevice true, rfl, rfl⟩
  | seekWrite line => exact ⟨.lseek, trivial, rfl⟩
  | write line => exact absurd ⟨line, rfl⟩ hnot
  | _ => exact hx.elim

/-- **A session with a line that is not a seek request comes to its write.** -/
lemma exists_run_write (fsl : FixedSizeLlseek) (i : ι) {piece : List Byte}
    (hpiece : (Pieces.split newline client).head? = some piece)
    (hlen : piece.length < 2 ^ 30 - 1) (hseek : parseSeekto piece = none) (hfree : g.mutex = none) :
    ∃ ls g' s' line, SuccessfulRun fsl i (g, .start client) ls (g', s') ∧ s'.pc = .write line ∧
      line.bytes = piece := by
  have hstep : ∀ x : Shared ι × Session, BeforeWrite x ∧ Received client x.2 →
      ¬(∃ line, x.2.pc = .write line) →
      ∃ e y, guarded (fun x e => e.Succeeds x.1.dev x.2.pc) (SessionStep fsl i) x e y ∧
        (BeforeWrite y ∧ Received client y.2) ∧ y.2.work 0 < x.2.work 0 := by
    intro x ⟨hx, hs⟩ hnot
    obtain ⟨e, he, hsome⟩ := hx.enabled fsl i hnot
    obtain ⟨y, hy⟩ := Option.isSome_iff_exists.mp hsome
    obtain ⟨hy', hlt⟩ := hx.step hs hpiece hlen hseek hnot he hy
    exact ⟨e, y, ⟨he, hy⟩, ⟨hy', hs.step he hy⟩, hlt⟩
  obtain ⟨ls, x, hrun, ⟨-, hs⟩, line, hpc⟩ :=
    Run.exists_goal (s := (g, Session.start client)) hstep ⟨hfree, rfl⟩
  refine ⟨ls, x.1, x.2, line, hrun, hpc, ?_⟩
  simp only [Received, hpc] at hs
  exact (Option.some.inj (hpiece.symm.trans hs.1)).symm

/-- **What the write is passed** is the C string of the first piece. -/
lemma writes_cString (fsl : FixedSizeLlseek) (i : ι) (g : Shared ι) {piece : List Byte}
    (hpiece : (Pieces.split newline client).head? = some piece) :
    Writes fsl i g client (cString piece) := by
  intro ls g' s' line hrun hpc
  have hs := received_of_run hrun
  simp only [Received, hpc] at hs
  obtain rfl := Option.some.inj (hpiece.symm.trans hs.1)
  exact ⟨hs.2, passesToWrite fsl i hpc⟩

/-- **When the write is passed what was received**: exactly if the line has no NUL. -/
lemma writes_piece_iff {piece : List Byte}
    (hpiece : (Pieces.split newline client).head? = some piece)
    (hlen : piece.length < 2 ^ 30 - 1) (hseek : parseSeekto piece = none) (hfree : g.mutex = none) :
    Writes fsl i g client piece ↔ 0 ∉ piece := by
  rw [← cString_eq_self_iff]
  have hwrites := writes_cString fsl i g hpiece
  constructor
  · intro h
    obtain ⟨ls, g', s', line, hrun, hpc, -⟩ := exists_run_write fsl i hpiece hlen hseek hfree
    have hstring := (hwrites ls g' s' line hrun hpc).2.written_eq
    exact Option.some.inj (hstring.symm.trans (h ls g' s' line hrun hpc).2.written_eq)
  · intro hstr
    rwa [hstr] at hwrites

/-! ## Replying -/

/-- The device can be read from the position on: its lock is free, and every piece fits the largest
buffer. -/
structure ReadableFrom (dev : Driver) (p : ℤ) : Prop where
  inv : ∃ q, Inv dev q []
  lock_eq : dev.lock = false
  nonneg : 0 ≤ p
  lt : p < 2 ^ 63
  length_lt : ∀ piece ∈ Pieces.split newline (dev.bytesFrom p), piece.length < 2 ^ 30 - 1

/-- The bytes from the position on: the complete pieces already sent, the bytes of the next piece
already read, and the bytes not read yet. -/
structure SentUpTo (rest : List Byte) (p : ℤ) (sent : List Byte) (fPos : Option ℤ)
    (ps : List (List Byte)) (part tail : List Byte) : Prop where
  rest_eq : rest = ps.flatten ++ (part ++ tail)
  complete : ∀ q ∈ ps, Pieces.Complete newline q
  sent_eq : sent = (ps.map cString).flatten
  fPos_eq : fPos = some (p + (ps.flatten ++ part).length)

/-- The reply: complete pieces have been sent as C strings, and a last piece without a newline has
not. -/
structure SentPieces (rest sent : List Byte) (ps : List (List Byte)) (tail : List Byte) : Prop where
  rest_eq : rest = ps.flatten ++ tail
  complete : ∀ q ∈ ps, Pieces.Complete newline q
  not_mem : newline ∉ tail
  sent_eq : sent = (ps.map cString).flatten

/-- The session replies with the bytes from the position on, or has done so. -/
def RepliesFrom (rest : List Byte) (p : ℤ) (s : Session) : Prop :=
  match s.pc with
  | .callRead => ∃ ps tail, SentUpTo rest p s.sent s.fPos ps [] tail
  | .read st => RutInv newline st ∧ ∃ ps tail, SentUpTo rest p s.sent s.fPos ps st.stored tail
  | .send line => Pieces.Complete newline line.bytes ∧
      ∃ ps tail, SentUpTo rest p s.sent s.fPos ps line.bytes tail
  | .closeDevice | .unlock | .done => ∃ ps tail, SentPieces rest s.sent ps tail
  | _ => False

/-- A bound on the number of steps a session still takes after the write, when the device holds
`total` bytes. -/
def Session.replyWork (total : ℕ) (s : Session) : ℕ :=
  match s.pc with
  | .callRead => 3 * (total - (s.fPos.getD 0).toNat) + 5
  | .read _ => 3 * (total - (s.fPos.getD 0).toNat) + 4
  | .send _ => 3 * (total - (s.fPos.getD 0).toNat) + 6
  | .closeDevice => 2
  | .unlock => 1
  | _ => 0

namespace SentUpTo

variable {dev : Driver} {sent part tail : List Byte} {fPos : Option ℤ} {ps : List (List Byte)}

/-- The position and the bytes not read yet make up the rest of the device. -/
lemma length_eq {rest : List Byte} (h : SentUpTo rest p sent fPos ps part tail) :
    rest.length = (ps.flatten ++ part).length + tail.length := by
  rw [h.rest_eq, ← List.append_assoc, List.length_append]

/-- **A complete read from the device** delivers the next byte not read yet. -/
lemma read_of_inv (h : SentUpTo (dev.bytesFrom p) p sent fPos ps part tail)
    {q : List AesdBufferEntry} (hI : Inv dev q []) (hlock : dev.lock = false) (h0 : 0 ≤ p)
    (hlt : p < 2 ^ 63) {env : ReadEnv} (hint : env.interrupted = false)
    (huncopied : env.uncopied = 0) :
    deviceRead dev fPos env = some (tail.head?.elim .eof .byte,
      some (p + (ps.flatten ++ (part ++ tail.take 1)).length)) := by
  have hbound := hI.length_flatten_lt
  have hlen := h.length_eq
  rw [Driver.bytesFrom, List.length_drop] at hlen
  set k := (ps.flatten ++ part).length with hk
  have hdrop : dev.commands.flatten.drop (p + k).toNat = tail := by
    rw [show (p + k).toNat = p.toNat + k by omega, ← List.drop_drop, ← Driver.bytesFrom, h.rest_eq,
      ← List.append_assoc, hk, List.drop_left]
  rw [h.fPos_eq, ← hk, hI.deviceRead hlock (by omega) (by omega) hint huncopied, hdrop]
  cases tail with
  | nil =>
    rw [List.take_nil, List.append_nil, ← hk]
    rfl
  | cons c tail =>
    have hnext : (ps.flatten ++ (part ++ [c])).length = k + 1 := by
      rw [← List.append_assoc, List.length_append, List.length_singleton]
    have hpos : p + ((ps.flatten ++ (part ++ [c])).length : ℤ) = p + k + 1 := by omega
    rw [List.take_one, List.head?_cons, Option.toList_some, hpos]
    rfl

/-- A complete read from a device whose pieces all fit. -/
lemma read (h : SentUpTo (dev.bytesFrom p) p sent fPos ps part tail) (hdev : ReadableFrom dev p)
    {env : ReadEnv} (hint : env.interrupted = false) (huncopied : env.uncopied = 0) :
    deviceRead dev fPos env = some (tail.head?.elim .eof .byte,
      some (p + (ps.flatten ++ (part ++ tail.take 1)).length)) := by
  obtain ⟨q, hI⟩ := hdev.inv
  exact h.read_of_inv hI hdev.lock_eq hdev.nonneg hdev.lt hint huncopied

/-- The buffer can grow while a piece is read. -/
lemma rutGrow_ne_none {st : RutState} {env : IterEnv}
    (h : SentUpTo (dev.bytesFrom p) p sent fPos ps st.stored tail) (hdev : ReadableFrom dev p)
    (hst : RutInv newline st) (henv : env.grow.isSome) : rutGrow env st ≠ none := by
  have hlen := hdev.length_lt
  rw [h.rest_eq, Pieces.split_flatten h.complete] at hlen
  exact Aesd.rutGrow_ne_none hst tail
    (fun piece hpiece => hlen piece (List.mem_append_right _ (List.mem_of_head? hpiece))) henv

variable {rest : List Byte}

/-- The next byte has been read. -/
lemma next {c : Byte} (h : SentUpTo rest p sent fPos ps part (c :: tail)) :
    SentUpTo rest p sent (some (p + (ps.flatten ++ (part ++ [c])).length)) ps (part ++ [c]) tail :=
  ⟨by rw [h.rest_eq, List.append_assoc, List.singleton_append], h.complete, h.sent_eq, rfl⟩

/-- A complete piece has been sent. -/
lemma concat (h : SentUpTo rest p sent fPos ps part tail)
    (hpart : Pieces.Complete newline part) :
    SentUpTo rest p (sent ++ cString part) fPos (ps ++ [part]) [] tail := by
  refine ⟨?_, ?_, ?_, ?_⟩
  · rw [h.rest_eq, List.flatten_concat, List.append_assoc, List.nil_append]
  · intro piece hpiece
    rcases List.mem_append.mp hpiece with hpiece | hpiece
    · exact h.complete piece hpiece
    · rw [List.mem_singleton.mp hpiece]
      exact hpart
  · rw [List.map_append, List.flatten_append, h.sent_eq]
    simp
  · rw [h.fPos_eq, List.flatten_concat, List.append_nil]

/-- Nothing is left to read. -/
lemma sentPieces (h : SentUpTo rest p sent fPos ps part []) (hpart : newline ∉ part) :
    SentPieces rest sent ps part :=
  ⟨by rw [h.rest_eq, List.append_nil], h.complete, hpart, h.sent_eq⟩

end SentUpTo

/-- **One iteration of the reply loop** reads the next byte of the device: a newline completes a
piece, and at the end of the file the loop ends, whatever has been read of the last piece. -/
lemma RepliesFrom.step_read {st st₁ : RutState} {env : IterEnv} {readEnv : ReadEnv} {r : ReadResult}
    {fPos : Option ℤ} (hs : RepliesFrom (g.dev.bytesFrom p) p s) (hdev : ReadableFrom g.dev p)
    (hint : readEnv.interrupted = false) (huncopied : readEnv.uncopied = 0) (hpc : s.pc = .read st)
    (hgrow : rutGrow env st = some st₁) (hread : deviceRead g.dev s.fPos readEnv = some (r, fPos)) :
    RepliesFrom (g.dev.bytesFrom p) p ({ s with fPos }.afterRead (rutConsume newline env r st₁)) ∧
      ({ s with fPos }.afterRead (rutConsume newline env r st₁)).replyWork
          g.dev.commands.flatten.length < s.replyWork g.dev.commands.flatten.length := by
  simp only [RepliesFrom, hpc] at hs
  obtain ⟨hst, ps, tail, hsent⟩ := hs
  obtain ⟨hst₁, hstored, -, hroom, -, -⟩ := rutGrow_some hst hgrow
  rw [← hstored] at hsent
  have hlength := hsent.length_eq
  have h0 := hdev.nonneg
  rw [Driver.bytesFrom, List.length_drop] at hlength
  rw [hsent.read hdev hint huncopied] at hread
  cases tail with
  | nil =>
    rw [List.head?_nil, Option.elim_none] at hread
    obtain ⟨rfl, rfl⟩ := Prod.mk.inj (Option.some.inj hread)
    have hend : ∃ line flag, (flag = 5 ∨ flag = 4) ∧
        rutConsume newline env .eof st₁ = .returned line flag := by
      rcases rutConsume_eof_cases env hst₁ with ⟨-, hret⟩ | ⟨-, line, hret, -⟩
      · exact ⟨none, 4, .inr rfl, hret⟩
      · exact ⟨some line, 5, .inl rfl, hret⟩
    obtain ⟨line, flag, hflag, hret⟩ := hend
    simp only [hret, Session.afterRead, if_pos hflag]
    refine ⟨⟨ps, st₁.stored, hsent.sentPieces hst₁.not_mem⟩, ?_⟩
    simp only [Session.replyWork, hpc]
    omega
  | cons c tail =>
    rw [List.head?_cons, Option.elim_some, List.take_succ_cons, List.take_zero] at hread
    obtain ⟨rfl, rfl⟩ := Prod.mk.inj (Option.some.inj hread)
    have hnext := hsent.next
    rcases rutConsume_byte_cases env hst₁ hroom c with
      ⟨rfl, line, hret, hline, -⟩ | ⟨-, st₂, hret, hstored₂, hst₂⟩
    · rw [hret, Session.afterRead_line]
      refine ⟨⟨⟨st₁.stored, hline, hst₁.not_mem⟩, ps, tail, ?_⟩, ?_⟩
      · rw [hline]
        exact hnext
      · simp only [Session.replyWork, hpc, hsent.fPos_eq, Option.getD_some]
        simp only [List.length_append, List.length_cons] at hlength ⊢
        omega
    · simp only [hret, Session.afterRead]
      refine ⟨⟨hst₂, ps, tail, ?_⟩, ?_⟩
      · rw [hstored₂]
        exact hnext
      · simp only [Session.replyWork, hpc, hsent.fPos_eq, Option.getD_some]
        simp only [List.length_append, List.length_cons] at hlength ⊢
        omega

/-- **A step of the reply loop** does not touch the device and is one step closer to its end.

**Proof sketch.** One case for each move. A piece that is complete is sent as a C string. -/
lemma RepliesFrom.step (hs : RepliesFrom (g.dev.bytesFrom p) p s) (hdev : ReadableFrom g.dev p)
    (he : e.Succeeds g.dev s.pc) (h : sessionStep fsl i g s e = some (g', s')) :
    g'.dev = g.dev ∧ RepliesFrom (g.dev.bytesFrom p) p s' ∧
      s'.replyWork g.dev.commands.flatten.length < s.replyWork g.dev.commands.flatten.length := by
  cases sessionStep_move h with
  | @callRead choice hpc =>
    simp only [RepliesFrom, hpc] at hs
    obtain ⟨ps, tail, hsent⟩ := hs
    rcases rutMalloc_cases newline s.flag choice with ⟨rfl, -⟩ | ⟨before, st, -, hret, hnil, -, -, hst⟩
    · exact absurd he (by simp [Event.Succeeds])
    · rw [hret]
      refine ⟨rfl, ⟨hst, ps, tail, ?_⟩, ?_⟩
      · rw [hnil]
        exact hsent
      · simp only [Session.afterRead, Session.replyWork, hpc]
        omega
  | @readFull st env readEnv hpc hgrow =>
    simp only [RepliesFrom, hpc] at hs
    obtain ⟨hst, ps, tail, hsent⟩ := hs
    exact absurd hgrow (hsent.rutGrow_ne_none hdev hst he.1)
  | read hpc hgrow hread => exact ⟨rfl, hs.step_read hdev he.2.1 he.2.2 hpc hgrow hread⟩
  | @send line n hpc =>
    simp only [RepliesFrom, hpc] at hs
    obtain ⟨hcomplete, ps, tail, hsent⟩ := hs
    have hn : n = some (cString line.bytes).length := by
      simpa only [Event.Succeeds, hpc] using he
    rw [hn, Option.getD_some, List.take_length]
    refine ⟨rfl, ⟨ps ++ [line.bytes], tail, hsent.concat hcomplete⟩, ?_⟩
    simp only [Session.replyWork, hpc]
    omega
  | closeDevice hpc | unlock hpc =>
    simp only [RepliesFrom, hpc] at hs
    refine ⟨rfl, hs, ?_⟩
    simp only [Session.replyWork, hpc]
    omega
  | unlockFailed hpc => exact absurd he (by simp [Event.Succeeds])
  | _ hpc => simp only [RepliesFrom, hpc] at hs

/-- A session that is not done with its reply can go on. -/
lemma RepliesFrom.enabled (fsl : FixedSizeLlseek) (i : ι)
    (hs : RepliesFrom (g.dev.bytesFrom p) p s) (hdev : ReadableFrom g.dev p)
    (hnot : s.pc ≠ .done) : Enabled fsl i g s := by
  obtain ⟨pc, left, fPos, flag, sent, ok, complete⟩ := s
  cases pc with
  | callRead => exact ⟨.malloc (some 0), rfl, rfl⟩
  | read st =>
    obtain ⟨-, ps, tail, hsent⟩ := hs
    refine ⟨.read grown ⟨false, 0⟩, ⟨rfl, rfl, rfl⟩, ?_⟩
    simp only [sessionStep]
    cases rutGrow grown st with
    | none => rfl
    | some st₁ =>
      have hread := @SentUpTo.read p g.dev _ _ _ _ _ hsent hdev ⟨false, 0⟩ rfl rfl
      rw [Option.isSome_map, hread]
      rfl
  | send line => exact ⟨.send (some (cString line.bytes).length), rfl, rfl⟩
  | closeDevice => exact ⟨.closeDevice, trivial, rfl⟩
  | unlock => exact ⟨.unlock true, rfl, rfl⟩
  | done => exact absurd rfl hnot
  | _ => exact hs.elim

/-- A session that starts its reply. -/
lemma StartsReply.repliesFrom (h : StartsReply p s) (rest : List Byte) : RepliesFrom rest p s := by
  simp only [RepliesFrom, h.pc_eq]
  refine ⟨[], rest, rfl, by simp, h.sent_eq, ?_⟩
  rw [h.fPos_eq]
  simp

/-- **What has been sent is the rest of the device** exactly if the rest has no NUL and does not end
with a piece without a newline. -/
lemma SentPieces.sent_eq_iff {rest sent tail : List Byte} {ps : List (List Byte)}
    (h : SentPieces rest sent ps tail) :
    sent = rest ↔ 0 ∉ rest ∧ (rest = [] ∨ rest.getLast? = some newline) := by
  have hstr : 0 ∉ rest → ps.map cString = ps := by
    intro h0
    refine (List.map_congr_left fun piece hpiece => ?_).trans (List.map_id ps)
    refine (cString_eq_self_iff piece).mpr fun hmem => h0 ?_
    rw [h.rest_eq]
    exact List.mem_append_left _ (List.mem_flatten.mpr ⟨piece, hpiece, hmem⟩)
  rw [h.sent_eq]
  constructor
  · intro heq
    have h0 : 0 ∉ rest := by
      rw [← heq]
      intro hmem
      obtain ⟨str, hstr, hmem⟩ := List.mem_flatten.mp hmem
      obtain ⟨piece, -, rfl⟩ := List.mem_map.mp hstr
      exact zero_not_mem_cString piece hmem
    refine ⟨h0, ?_⟩
    rw [hstr h0, h.rest_eq, List.self_eq_append_right] at heq
    rw [h.rest_eq, heq, List.append_nil]
    rcases List.eq_nil_or_concat ps with rfl | ⟨init, last, rfl⟩
    · exact .inl rfl
    · obtain ⟨body, rfl, -⟩ := h.complete last (by simp)
      exact .inr (by simp)
  · rintro ⟨h0, hlast⟩
    have htail : tail = [] := by
      by_contra hne
      rcases hlast with hnil | hlast
      · rw [h.rest_eq] at hnil
        exact hne (List.append_eq_nil_iff.mp hnil).2
      · rw [h.rest_eq, List.getLast?_append_of_ne_nil _ hne] at hlast
        exact h.not_mem (List.mem_of_getLast? hlast)
    rw [hstr h0, h.rest_eq, htail, List.append_nil]

/-- In a run from the start of the reply at the position, with the device as it was. -/
structure Replies (dev : Driver) (p : ℤ) (x : Shared ι × Session) : Prop where
  dev_eq : x.1.dev = dev
  repliesFrom : RepliesFrom (dev.bytesFrom p) p x.2

namespace Replies

variable {dev : Driver} {x y : Shared ι × Session}

/-- A step of a run. -/
lemma step (hdev : ReadableFrom dev p) (hx : Replies dev p x)
    (h : guarded (fun x e => e.Succeeds x.1.dev x.2.pc) (SessionStep fsl i) x e y) :
    Replies dev p y ∧ y.2.replyWork dev.commands.flatten.length <
      x.2.replyWork dev.commands.flatten.length := by
  obtain ⟨rfl, hx⟩ := hx
  obtain ⟨he, hxy⟩ := h
  obtain ⟨hdev', hy, hlt⟩ := hx.step hdev he hxy
  exact ⟨⟨hdev', hy⟩, hlt⟩

/-- Every state of a run can be continued to one in which the session is done. -/
lemma exists_run_done (fsl : FixedSizeLlseek) (i : ι) (hdev : ReadableFrom dev p)
    (hx : Replies dev p x) :
    ∃ ls y, SuccessfulRun fsl i x ls y ∧ Replies dev p y ∧ y.2.pc = .done := by
  refine Run.exists_goal (m := fun y => y.2.replyWork dev.commands.flatten.length)
    (fun x hx hnot => ?_) hx
  have henabled : Enabled fsl i x.1 x.2 := by
    obtain ⟨rfl, hx⟩ := hx
    exact hx.enabled fsl i hdev hnot
  obtain ⟨e, he, hsome⟩ := henabled
  obtain ⟨y, hy⟩ := Option.isSome_iff_exists.mp hsome
  exact ⟨e, y, ⟨he, hy⟩, hx.step hdev ⟨he, hy⟩⟩

/-- What has been sent when the session is done. -/
lemma sent_eq_iff (hx : Replies dev p x) (hpc : x.2.pc = .done) :
    x.2.sent = dev.bytesFrom p ↔
      0 ∉ dev.bytesFrom p ∧
        (dev.bytesFrom p = [] ∨ (dev.bytesFrom p).getLast? = some newline) := by
  have hs := hx.repliesFrom
  simp only [RepliesFrom, hpc] at hs
  obtain ⟨ps, tail, hpieces⟩ := hs
  exact hpieces.sent_eq_iff

end Replies

/-- Every state of a run from the start of the reply. -/
lemma StartsReply.replies (hs : StartsReply p s) (hdev : ReadableFrom g.dev p) {ls : List Event}
    {x : Shared ι × Session} (hrun : SuccessfulRun fsl i (g, s) ls x) : Replies g.dev p x :=
  hrun.invariant ⟨rfl, hs.repliesFrom _⟩ fun _ _ _ hx hstep => (hx.step hdev hstep).1

/-- Every run from the start of the reply comes to its end. -/
lemma repliesEnd (fsl : FixedSizeLlseek) (i : ι) (hdev : ReadableFrom g.dev p) :
    RepliesEnd fsl i g p := by
  refine fun s hs => ⟨⟨s.replyWork g.dev.commands.flatten.length, fun ls x hx => ?_⟩,
    fun ls x hx => ?_⟩
  · have hle := hx.length_le (m := fun x => x.2.replyWork g.dev.commands.flatten.length)
      ⟨rfl, hs.repliesFrom _⟩ fun x e y hx hstep => Replies.step hdev hx hstep
    exact (Nat.le_add_right _ _).trans hle
  · obtain ⟨ls', y, hy, -, hpc⟩ := (hs.replies hdev hx).exists_run_done fsl i hdev
    exact ⟨ls', y, hy, hpc⟩

/-- **The reply loop from any position** sends the rest of the device exactly if the rest has no NUL
and does not end with a piece without a newline. -/
lemma sendsRest_iff (fsl : FixedSizeLlseek) (i : ι) (hdev : ReadableFrom g.dev p) :
    SendsRest fsl i g p ↔
      0 ∉ g.dev.bytesFrom p ∧
        (g.dev.bytesFrom p = [] ∨ (g.dev.bytesFrom p).getLast? = some newline) := by
  constructor
  · intro hall
    have hs : StartsReply p ⟨.callRead, [], some p, -1, [], false, false⟩ := ⟨rfl, rfl, rfl⟩
    obtain ⟨ls, y, hrun, hy, hpc⟩ :=
      Replies.exists_run_done (x := (g, _)) fsl i hdev ⟨rfl, hs.repliesFrom _⟩
    exact (hy.sent_eq_iff hpc).mp (hall _ hs ls y.1 y.2 hrun hpc)
  · intro hcond s hs ls g' s' hrun hpc
    exact ((hs.replies hdev hrun).sent_eq_iff hpc).mpr hcond

/-- **When a session transfers the bytes faithfully.** A session can come to the write of a line
that is not a seek request. In every run the bytes it passes to `write` are those of the line up to
its first NUL, and they are what was received exactly if the line has no NUL. From every position of
every device the reply comes to its end, and in every run the session has sent the bytes up to the
end of the file exactly if they have no NUL and are empty or end in a newline.

**Proof sketch.** The bytes passed on are C strings, so they end at the first NUL. The reply loop
sends the complete pieces and drops what follows the last newline. -/
theorem session_transfer (fsl : FixedSizeLlseek) (i : ι) {g : Shared ι} (hdev : Reachable fsl g.dev)
    (hlock : g.dev.lock = false) :
    (∀ client piece, (Pieces.split newline client).head? = some piece →
        piece.length < 2 ^ 30 - 1 → parseSeekto piece = none → g.mutex = none →
        (∃ ls g' s' line, SuccessfulRun fsl i (g, .start client) ls (g', s') ∧
          s'.pc = .write line) ∧
          Writes fsl i g client (cString piece) ∧ (Writes fsl i g client piece ↔ 0 ∉ piece)) ∧
      ∀ p, 0 ≤ p → p < 2 ^ 63 →
        (∀ piece ∈ Pieces.split newline (g.dev.bytesFrom p), piece.length < 2 ^ 30 - 1) →
        RepliesEnd fsl i g p ∧
          (SendsRest fsl i g p ↔ 0 ∉ g.dev.bytesFrom p ∧
            (g.dev.bytesFrom p = [] ∨ (g.dev.bytesFrom p).getLast? = some newline)) := by
  constructor
  · intro client piece hpiece hlen hseek hfree
    obtain ⟨ls, g', s', line, hrun, hpc, -⟩ := exists_run_write fsl i hpiece hlen hseek hfree
    exact ⟨⟨ls, g', s', line, hrun, hpc⟩, writes_cString fsl i g hpiece,
      writes_piece_iff hpiece hlen hseek hfree⟩
  · intro p h0 hlt hlen
    have hreadable : ReadableFrom g.dev p := ⟨hdev.inv, hlock, h0, hlt, hlen⟩
    exact ⟨repliesEnd fsl i hreadable, sendsRest_iff fsl i hreadable⟩

/-- A session on a device that holds `"hi\n"` and `"b\n"`: it passes the first line of its client to
`write`, and from the second command on it replies with `"b\n"`. -/
theorem session_transfer_second_command :
    ∃ dev, Reachable fixedSizeLlseek dev ∧ dev.bytesFrom 3 = [98, 10] ∧
      (∃ ls g' s' line,
        SuccessfulRun fixedSizeLlseek (0 : Fin 1) (⟨dev, none⟩, .start [97, 10, 120]) ls (g', s') ∧
          s'.pc = .write line) ∧
      Writes fixedSizeLlseek (0 : Fin 1) ⟨dev, none⟩ [97, 10, 120] [97, 10] ∧
      RepliesEnd fixedSizeLlseek (0 : Fin 1) ⟨dev, none⟩ 3 ∧
      SendsRest fixedSizeLlseek (0 : Fin 1) ⟨dev, none⟩ 3 := by
  obtain ⟨dev, q, hdev, -, hlock, hcont⟩ :=
    exists_device fixedSizeLlseek [[104, 105, 10], [98, 10]] (by decide)
  have hcommands : dev.commands = [[104, 105, 10], [98, 10]] := congrArg Contents.commands hcont
  have hbytes : dev.bytesFrom 3 = [98, 10] := by
    rw [Driver.bytesFrom, hcommands]
    rfl
  have h := session_transfer fixedSizeLlseek (0 : Fin 1) (g := ⟨dev, none⟩) hdev hlock
  obtain ⟨hexists, -, hwrites⟩ := h.1 [97, 10, 120] [97, 10] (by decide) (by decide) rfl rfl
  obtain ⟨hends, hsends⟩ := h.2 3 (by decide) (by decide) (by simp only [hbytes]; decide)
  refine ⟨dev, hdev, hbytes, hexists, hwrites.mpr (by decide), hends, hsends.mpr ?_⟩
  simp only [hbytes]
  exact ⟨by decide, .inr rfl⟩

/-- Of the line `"a\0\n"` only the first byte is passed to `write`. -/
theorem session_transfer_fails :
    ¬∀ (fsl : FixedSizeLlseek) (g : Shared (Fin 1)) (client piece : List Byte),
      (Pieces.split newline client).head? = some piece → piece.length < 2 ^ 30 - 1 →
      parseSeekto piece = none → g.mutex = none → Writes fsl 0 g client piece := by
  intro h
  have hpiece : (Pieces.split newline [97, 0, 10]).head? = some [97, 0, 10] := by decide
  have hlen : [97, 0, newline].length < 2 ^ 30 - 1 := by decide
  have hwrites := h fixedSizeLlseek ⟨initialDriver 0, none⟩ [97, 0, 10] _ hpiece hlen rfl rfl
  exact (writes_piece_iff hpiece hlen rfl rfl).mp hwrites (by decide)

end Aesd
