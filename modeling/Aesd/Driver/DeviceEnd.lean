import Aesd.Driver.CommitDecision
import Aesd.Driver.Reader

set_option relaxedAutoImplicit false
set_option autoImplicit false

/-!
# Where the device ends

Two functions find the end of the device. `aesd_llseek` adds up the sizes of the slots in array
order and leaves out those with a NULL pointer; the lookup of `aesd_read` walks the slots from
`in_offs` on by their sizes and never looks at a pointer. Both find the bytes of the commands held:
a slot that holds no command is zero in pointer and size, and the pending bytes are in no slot.

## Main definitions

* `Aesd.SeeksWithin` — what `fixed_size_llseek` accepts, for the three directives.
* `Aesd.ReadsUntilZero` — what a reader receives from position `0` on until a read returns `0`.
* `Aesd.ReadAtPos` — a read that answers as the device end requires.

## Main results

* `Aesd.ReadsUntilZero.eq_flatten`, `Aesd.exists_readsUntilZero` — such a reader receives every
  byte held, and it comes to its end.
* `Aesd.llseek_read_agree` — the size, the reader and the reads after a seek agree on the end.
-/

namespace Aesd

/-! ## The seek -/

/-- `SEEK_CUR`. -/
def seekCur : ℤ := 1

/-- `SEEK_END`. -/
def seekEnd : ℤ := 2

/-- The position a seek asks for: relative to `0`, to the position before or to the size. -/
def seekTarget (fPos offset whence size : ℤ) : Option ℤ :=
  if whence = seekSet then some offset
  else if whence = seekCur then some (fPos + offset)
  else if whence = seekEnd then some (size + offset)
  else none

/-- `fixed_size_llseek` accepts exactly the positions from `0` to the size, relative to `0`, to the
position before or to the size; otherwise it fails and moves nothing. -/
structure SeeksWithin (fsl : FixedSizeLlseek) : Prop where
  accepts : ∀ {fPos offset whence size pos : ℤ}, seekTarget fPos offset whence size = some pos →
    0 ≤ pos → pos ≤ size → fsl.call fPos offset whence size = (pos, pos)
  rejects : ∀ {fPos offset whence size : ℤ},
    (∀ pos, seekTarget fPos offset whence size = some pos → ¬(0 ≤ pos ∧ pos ≤ size)) →
    (fsl.call fPos offset whence size).1 < 0 ∧ (fsl.call fPos offset whence size).2 = fPos

variable {fsl : FixedSizeLlseek} {s : Driver} {q : List AesdBufferEntry} {t u : ReaderState}

/-- A seek either goes to the position it asks for, within the device, or fails in place. -/
lemma SeeksWithin.cases (hfsl : SeeksWithin fsl) (fPos offset whence size : ℤ) :
    (∃ pos, seekTarget fPos offset whence size = some pos ∧ 0 ≤ pos ∧ pos ≤ size ∧
      fsl.call fPos offset whence size = (pos, pos)) ∨
    ((fsl.call fPos offset whence size).1 < 0 ∧
      (fsl.call fPos offset whence size).2 = fPos) := by
  by_cases hin : ∃ pos, seekTarget fPos offset whence size = some pos ∧ 0 ≤ pos ∧ pos ≤ size
  · obtain ⟨pos, htarget, h0, hle⟩ := hin
    exact .inl ⟨pos, htarget, h0, hle, hfsl.accepts htarget h0 hle⟩
  · exact .inr (hfsl.rejects fun pos htarget hpos => hin ⟨pos, htarget, hpos⟩)

/-- The instance to evaluate calls with, in terms of the position asked for. -/
lemma fixedSizeLlseek_call (fPos offset whence size : ℤ) :
    fixedSizeLlseek.call fPos offset whence size =
      match seekTarget fPos offset whence size with
      | none => (-EINVAL, fPos)
      | some pos => if 0 ≤ pos ∧ pos ≤ size then (pos, pos) else (-EINVAL, fPos) := by
  by_cases hset : whence = seekSet
  · simp [fixedSizeLlseek, seekTarget, hset]
  by_cases hcur : whence = 1
  · simp [fixedSizeLlseek, seekTarget, seekSet, seekCur, hcur]
  by_cases hend : whence = 2
  · simp [fixedSizeLlseek, seekTarget, seekSet, seekCur, seekEnd, hend]
  · simp [fixedSizeLlseek, seekTarget, seekCur, seekEnd, hset, hcur, hend]

/-- The instance to evaluate calls with seeks within the size. -/
lemma seeksWithin_fixedSizeLlseek : SeeksWithin fixedSizeLlseek where
  accepts {fPos offset whence size pos} htarget h0 hle := by
    rw [fixedSizeLlseek_call, htarget]
    exact if_pos ⟨h0, hle⟩
  rejects {fPos offset whence size} hout := by
    have herr : -EINVAL < 0 := by decide
    rw [fixedSizeLlseek_call]
    cases htarget : seekTarget fPos offset whence size with
    | none => exact ⟨herr, rfl⟩
    | some pos =>
      simp only
      rw [if_neg (hout pos htarget)]
      exact ⟨herr, rfl⟩

/-! ## Reading to the end -/

/-- The label is a read. -/
def ReaderLabel.IsRead : ReaderLabel → Prop
  | .read .. => True
  | .write .. => False

/-- What a reader receives that starts at position `0` and reads, any count above `0` each time,
until a read returns `0`. -/
def ReadsUntilZero (s : Driver) (received : List Byte) : Prop :=
  ∃ ls t count env reply u,
    Transition.Run (Transition.guarded (fun _ l => l.IsRead) ReaderStep) ⟨s, 0, []⟩ ls t ∧
    ReaderStep t (.read count env reply) u ∧ reply.ret = 0 ∧ received = u.received

/-- A reader that only reads stays at the end of a prefix of an unchanged device. -/
lemma atPrefix_of_reads {ls : List ReaderLabel} (hI : Inv s q [])
    (hrun : Transition.Run (Transition.guarded (fun _ l => l.IsRead) ReaderStep) ⟨s, 0, []⟩ ls t) :
    t.dev = s ∧ AtPrefix t := by
  refine hrun.invariant (I := fun t => t.dev = s ∧ AtPrefix t)
    ⟨rfl, ⟨q, hI⟩, List.nil_prefix, rfl⟩ ?_
  rintro t l u ⟨hdev, ht⟩ ⟨hread, hstep⟩
  cases l with
  | read count env reply =>
    obtain ⟨hsame, hu, -⟩ := ht.read hstep
    exact ⟨hsame.trans hdev, hu⟩
  | write fPos buf env reply => exact hread.elim

/-- **A reader that reads until a read returns `0` receives every byte held**, in order. -/
lemma ReadsUntilZero.eq_flatten {received : List Byte} (hI : Inv s q [])
    (h : ReadsUntilZero s received) : received = s.commands.flatten := by
  obtain ⟨ls, t, count, env, reply, u, hrun, hstep, hzero, rfl⟩ := h
  obtain ⟨rfl, ht⟩ := atPrefix_of_reads hI hrun
  obtain ⟨hdev, hu, hfailed, hfaithful⟩ := ht.read hstep
  cases hint : env.interrupted with
  | true =>
    have herr := (hfailed hint).1
    exact absurd (hzero.symm.trans herr) (by decide)
  | false =>
    have hall : t.received = t.dev.commands.flatten := (hfaithful hint).1.mp hzero
    have hprefix := hu.received_prefix
    rw [hdev] at hprefix
    refine hprefix.eq_of_length_le ?_
    obtain ⟨-, -, -, -, hreceived⟩ := hstep
    rw [hreceived, ← hall, List.length_append]
    omega

/-- A read with a free lock returns, and delivers something unless it returns `0`. -/
lemma exists_read_of_free (ht : AtPrefix t) (hlock : t.dev.lock = false) {count : ℕ}
    (hcount : 0 < count) :
    ∃ reply u, ReaderStep t (.read count ⟨false, 0⟩ reply) u ∧ u.dev = t.dev ∧ AtPrefix u ∧
      (reply.ret = 0 ∨ t.received.length < u.received.length) := by
  obtain ⟨reply, hread⟩ := aesdRead_returns hlock t.fPos count ⟨false, 0⟩
  have hstep : ReaderStep t (.read count ⟨false, 0⟩ reply)
      ⟨t.dev, reply.fPos, t.received ++ reply.data⟩ := ⟨hcount, rfl, hread, rfl, rfl⟩
  obtain ⟨hdev, hu, -, hfaithful⟩ := ht.read hstep
  refine ⟨reply, _, hstep, hdev, hu, ?_⟩
  by_cases hzero : reply.ret = 0
  · exact .inl hzero
  · obtain ⟨hone, -, hlen, -⟩ := (hfaithful rfl).2 hzero
    refine .inr ?_
    rw [List.length_append]
    omega

/-- **With a free lock a reader comes to the end.**

**Proof sketch.** What is left of the bytes held decreases with every read that does not return
`0`. -/
lemma exists_readsUntilZero (hI : Inv s q []) (hlock : s.lock = false) :
    ∃ received, ReadsUntilZero s received := by
  have hgoal : ∃ ls t, Transition.Run (Transition.guarded (fun _ l => l.IsRead) ReaderStep)
      ⟨s, 0, []⟩ ls t ∧ (t.dev = s ∧ AtPrefix t) ∧
      ∃ reply u, ReaderStep t (.read 1 ⟨false, 0⟩ reply) u ∧ reply.ret = 0 := by
    refine Transition.Run.exists_goal (m := fun t => s.commands.flatten.length - t.received.length)
      ?_ ⟨rfl, ⟨q, hI⟩, List.nil_prefix, rfl⟩
    rintro t ⟨rfl, ht⟩ hgo
    obtain ⟨reply, u, hstep, hdev, hu, hzero | hmore⟩ := exists_read_of_free ht hlock Nat.one_pos
    · exact absurd ⟨reply, u, hstep, hzero⟩ hgo
    · have hle := hu.received_prefix.length_le
      rw [hdev] at hle
      have hread : (ReaderLabel.read 1 ⟨false, 0⟩ reply).IsRead := trivial
      exact ⟨_, u, ⟨hread, hstep⟩, ⟨hdev, hu⟩, by omega⟩
  obtain ⟨ls, t, hrun, -, reply, u, hstep, hzero⟩ := hgoal
  exact ⟨_, ls, t, _, _, reply, u, hrun, hstep, hzero, rfl⟩

/-! ## Reading after a seek -/

/-- A read at `pos` whose lock wait is interrupted fails and moves nothing. Any other returns `0`
exactly at the end of the device, and otherwise the bytes at `pos`: at least one, at most `count`,
and the position is after them. -/
structure ReadAtPos (s : Driver) (pos : ℤ) (count : ℕ) (env : ReadEnv) (reply : Reply) : Prop where
  interrupted : env.interrupted = true →
    reply.ret = -ERESTARTSYS ∧ reply.fPos = pos ∧ reply.data = []
  zero_iff : env.interrupted = false → (reply.ret = 0 ↔ pos = s.totalBufferSize)
  delivers : env.interrupted = false → pos ≠ s.totalBufferSize →
    1 ≤ reply.ret ∧ reply.ret ≤ count
  data_eq : env.interrupted = false → reply.ret = reply.data.length ∧
    reply.fPos = pos + reply.ret ∧ reply.data <+: s.commands.flatten.drop pos.toNat

/-- **A read within the device** that returns. -/
lemma readAtPos_of_read (hI : Inv s q []) {pos : ℤ} (h0 : 0 ≤ pos) (hle : pos ≤ s.totalBufferSize)
    {count : ℕ} {env : ReadEnv} {reply : Reply} {s' : Driver} (hcount : 0 < count)
    (huncopied : env.uncopied = 0) (h : aesdRead s pos count env = some (reply, s')) :
    ReadAtPos s pos count env reply := by
  have htotal := hI.length_flatten_lt
  have hend := hI.totalBufferSize_eq
  rcases aesdRead_cases hI h0 (by omega) huncopied h with
    ⟨hint, rfl⟩ | ⟨hint, data, hdata, rfl⟩
  · constructor <;> simp [hint]
  · have hprefix : data <+: s.commands.flatten.drop pos.toNat :=
      hdata ▸ Segments.readAt_prefix s.commands pos.toNat count
    have hmax : data.length ≤ count := hdata ▸ Segments.length_readAt_le s.commands pos.toNat count
    have hzero : data.length = 0 ↔ pos = s.totalBufferSize := by
      rw [List.length_eq_zero_iff, hdata, Segments.readAt_eq_nil hcount]
      omega
    refine ⟨fun hi => absurd (hint.symm.trans hi) (by simp), fun _ => ?_, fun _ hne => ?_,
      fun _ => ⟨rfl, rfl, hprefix⟩⟩
    · rw [← hzero]
      exact Int.natCast_eq_zero
    · have hpos : data.length ≠ 0 := fun hz => hne (hzero.mp hz)
      exact ⟨by simp only; omega, by simp only; omega⟩

/-- **The seek and the read agree on where the device ends**, in every reachable state. The size
that `aesd_llseek` computes is the number of bytes of the commands held, and of the bytes that a
reader receives from position `0` on until a read returns `0`; with a free lock there is such a
reader. A seek that fails leaves the position as it was. A seek that succeeds goes to a position
from `0` to the size, where the next read, which returns if the lock is free, gives `0` exactly if
the position is the size and otherwise the bytes there, unless its lock wait is interrupted. -/
theorem llseek_read_agree (hfsl : SeeksWithin fsl) (hs : Reachable fsl s) :
    s.totalBufferSize = s.commands.flatten.length ∧
    (∀ received, ReadsUntilZero s received →
      received = s.commands.flatten ∧ (received.length : ℤ) = s.totalBufferSize) ∧
    (s.lock = false → ∃ received, ReadsUntilZero s received) ∧
    ∀ fPos offset whence ret fPos',
      aesdLlseek fsl s fPos offset whence = (ret, fPos') →
      (ret < 0 → fPos' = fPos) ∧
      (0 ≤ ret → fPos' = ret ∧ ret ≤ s.totalBufferSize ∧
        seekTarget fPos offset whence s.totalBufferSize = some ret ∧
        ∀ count env, 0 < count → env.uncopied = 0 →
          (s.lock = false → ∃ reply, aesdRead s fPos' count env = some (reply, s)) ∧
          ∀ reply s', aesdRead s fPos' count env = some (reply, s') →
            ReadAtPos s fPos' count env reply) := by
  obtain ⟨q, hI⟩ := hs.inv
  refine ⟨hI.totalBufferSize_eq, fun received hreceived => ?_, exists_readsUntilZero hI,
    fun fPos offset whence ret fPos' hseek => ?_⟩
  · have hall := hreceived.eq_flatten hI
    exact ⟨hall, by rw [hall, hI.totalBufferSize_eq]⟩
  · rw [aesdLlseek_eq_call] at hseek
    rcases hfsl.cases fPos offset whence s.totalBufferSize with
      ⟨pos, htarget, h0, hle, hcall⟩ | ⟨hneg, hstay⟩
    · rw [hcall] at hseek
      obtain ⟨rfl, rfl⟩ := Prod.mk.inj hseek
      refine ⟨fun hneg => absurd hneg (by omega), fun _ => ⟨rfl, hle, htarget, ?_⟩⟩
      intro count env hcount huncopied
      exact ⟨fun hlock => aesdRead_returns hlock _ count env,
        fun reply s' hread => readAtPos_of_read hI h0 hle hcount huncopied hread⟩
    · rw [hseek] at hneg hstay
      exact ⟨fun _ => hstay, fun h0 => absurd hneg (by simp only; omega)⟩

/-- After a write of `"hi\n"`: the seek to the last byte, and the reads there. -/
theorem llseek_read_agree_last_byte :
    ∃ s, Reachable fixedSizeLlseek s ∧ s.totalBufferSize = 3 ∧
      aesdLlseek fixedSizeLlseek s 0 (-1) seekEnd = (2, 2) ∧
      ∀ count env, 0 < count → env.uncopied = 0 →
        ∃ reply, aesdRead s 2 count env = some (reply, s) ∧ ReadAtPos s 2 count env reply := by
  obtain ⟨s, _, hs, -, hlock, hcont⟩ := exists_device fixedSizeLlseek [[104, 105, 10]] (by decide)
  have hcommands : s.commands = [[104, 105, 10]] := congrArg Contents.commands hcont
  obtain ⟨hsize, -, -, hseek⟩ := llseek_read_agree seeksWithin_fixedSizeLlseek hs
  have hthree : s.totalBufferSize = 3 := by
    rw [hsize, hcommands]
    rfl
  have hlast : aesdLlseek fixedSizeLlseek s 0 (-1) seekEnd = (2, 2) := by
    rw [aesdLlseek_eq_call, hthree]
    decide
  refine ⟨s, hs, hthree, hlast, fun count env hcount huncopied => ?_⟩
  obtain ⟨hreturns, hread⟩ :=
    ((hseek 0 (-1) seekEnd 2 2 hlast).2 (by decide)).2.2.2 count env hcount huncopied
  obtain ⟨reply, hreply⟩ := hreturns hlock
  exact ⟨reply, hreply, hread reply s hreply⟩

/-- On the initialised device the end is position `0`, but a read there whose lock wait is
interrupted returns `-ERESTARTSYS`. -/
theorem llseek_read_agree_fails :
    ¬∀ (fsl : FixedSizeLlseek) (s : Driver) (fPos offset whence ret fPos' : ℤ) (count : ℕ)
      (env : ReadEnv) (reply : Reply) (s' : Driver), SeeksWithin fsl → Reachable fsl s →
      s.lock = false → aesdLlseek fsl s fPos offset whence = (ret, fPos') → 0 ≤ ret →
      0 < count → env.uncopied = 0 → aesdRead s fPos' count env = some (reply, s') →
      (reply.ret = 0 ↔ fPos' = s.totalBufferSize) := by
  intro h
  have hiff := h fixedSizeLlseek (initialDriver 0) 0 0 seekSet 0 0 1 ⟨true, 0⟩
    { ret := -ERESTARTSYS, fPos := 0 } (initialDriver 0) seeksWithin_fixedSizeLlseek
    (reachable_initialDriver _ 0) rfl (by decide) (by decide) (by decide) rfl rfl
  exact absurd (hiff.mpr (by decide)) (by decide)

end Aesd
