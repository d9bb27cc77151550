import Aesd.Driver.CommitDecision

set_option relaxedAutoImplicit false
set_option autoImplicit false

/-!
# A reader among writers

One open file reads from position `0` while other open files write. As long as no write evicts a
command, what the reader has received is a prefix of the commands held, and its file position is
the length of that prefix.

## Main definitions

* `Aesd.ReaderStep` — a read of the reader, or a write through another file that evicts nothing.
* `Aesd.FaithfulRead` — what one read returns to a reader that has received a prefix.

## Main results

* `Aesd.reader_faithful` — the reader over any run of such steps.
-/

namespace Aesd

/-- The device, the file position of the reader and the bytes it has received. -/
structure ReaderState where
  dev : Driver
  fPos : ℤ
  received : List Byte

/-- A read of the reader or a write through another open file, with its reply. -/
inductive ReaderLabel where
  | read (count : ℕ) (env : ReadEnv) (reply : Reply)
  | write (fPos : ℤ) (buf : UserBuf) (env : WriteEnv) (reply : Reply)

/-- One step. A read asks for at least one byte and is copied completely. A write evicts no
command: the ring is not full, or the write commits nothing. -/
def ReaderStep (t : ReaderState) : ReaderLabel → ReaderState → Prop
  | .read count env reply, u => 0 < count ∧ env.uncopied = 0 ∧
      aesdRead t.dev t.fPos count env = some (reply, u.dev) ∧ u.fPos = reply.fPos ∧
      u.received = t.received ++ reply.data
  | .write fPos buf env reply, u => aesdWrite t.dev fPos buf env = some (reply, u.dev) ∧
      (t.dev.circBuff.full = false ∨ u.dev.circBuff = t.dev.circBuff) ∧ u.fPos = t.fPos ∧
      u.received = t.received

/-- A read returns `0` exactly when the reader has every byte held, and otherwise between `1` and
`count` bytes of one command. -/
def FaithfulRead (t : ReaderState) (count : ℕ) (reply : Reply) : Prop :=
  (reply.ret = 0 ↔ t.received = t.dev.commands.flatten) ∧
    (reply.ret ≠ 0 → 1 ≤ reply.ret ∧ reply.ret ≤ count ∧ reply.data.length = reply.ret ∧
      ∃ c ∈ t.dev.commands, reply.data <:+: c)

/-- The reader has received a prefix of the commands held, and is at its end. -/
structure AtPrefix (t : ReaderState) : Prop where
  inv : ∃ q, Inv t.dev q []
  received_prefix : t.received <+: t.dev.commands.flatten
  fPos_eq : t.fPos = t.received.length

variable {t u : ReaderState} {s s' : Driver}

/-- A write that evicts nothing only appends to the commands held. -/
lemma commands_prefix_of_write {q : List AesdBufferEntry} {fPos : ℤ} {buf : UserBuf} {env : WriteEnv}
    {reply : Reply} (hI : Inv s q []) (h : aesdWrite s fPos buf env = some (reply, s'))
    (hevict : s.circBuff.full = false ∨ s'.circBuff = s.circBuff) :
    s.commands <+: s'.commands := by
  rcases aesdWriteWith_cases hI h with ⟨found, hd⟩ | hf
  · have hcommands := hd.stored.commands_eq
    split_ifs at hcommands with hfound
    · obtain ⟨p, hcirc⟩ := hd.stored.circBuff_eq
      rw [if_pos hfound] at hcirc
      have hfull : s.circBuff.full = false := by
        rcases hevict with hfull | hsame
        · exact hfull
        · exact absurd (congrArg AesdCircularBuffer.inOffs (hcirc.symm.trans hsame))
            (inOffs_addEntry_ne _ _)
      have hlen : s.commands.length < 10 := by
        have hnot := hI.ring.full_iff.not.mp (by simp [hfull])
        have hten := hI.ring.length_le
        rw [hI.commands_eq, List.length_map]
        omega
      rw [hcommands, List.rtake, List.length_append, List.length_singleton,
        show s.commands.length + 1 - 10 = 0 by omega, List.drop_zero]
      exact List.prefix_append _ _
    · rw [hcommands]
  · rw [hf.state_eq]

/-- **One read of a reader at the end of a prefix.** If its lock wait is interrupted it fails and
changes nothing; otherwise it is faithful and extends the prefix. -/
lemma AtPrefix.read (ht : AtPrefix t) {count : ℕ} {env : ReadEnv} {reply : Reply}
    (h : ReaderStep t (.read count env reply) u) :
    u.dev = t.dev ∧ AtPrefix u ∧
      (env.interrupted = true → reply.ret = -ERESTARTSYS ∧ u.fPos = t.fPos ∧
        u.received = t.received) ∧
      (env.interrupted = false → FaithfulRead t count reply) := by
  obtain ⟨hcount, huncopied, hread, hpos, hreceived⟩ := h
  obtain ⟨q, hI⟩ := ht.inv
  have hdev : u.dev = t.dev := aesdRead_state hread
  have hle := ht.received_prefix.length_le
  have htotal := hI.length_flatten_lt
  have hfPos := ht.fPos_eq
  refine ⟨hdev, ?_⟩
  rcases aesdRead_cases hI (by omega) (by omega) huncopied hread with
    ⟨hint, rfl⟩ | ⟨hint, data, hdata, rfl⟩ <;> rw [hint]
  · have hsame : u.received = t.received := hreceived.trans (List.append_nil _)
    refine ⟨⟨hdev ▸ ht.inv, ?_, ?_⟩, fun _ => ⟨rfl, hpos, hsame⟩, fun h => absurd h (by simp)⟩
    · rw [hsame, hdev]
      exact ht.received_prefix
    · rw [hsame, hpos]
      exact ht.fPos_eq
  · rw [show t.fPos.toNat = t.received.length by omega] at hdata
    -- what is received next continues the prefix
    have hsplit : t.received ++ t.dev.commands.flatten.drop t.received.length =
        t.dev.commands.flatten := by
      conv_rhs => rw [← List.take_append_drop t.received.length t.dev.commands.flatten]
      rw [← List.prefix_iff_eq_take.mp ht.received_prefix]
    have hprefix : t.received ++ data <+: t.dev.commands.flatten := by
      rw [← hsplit, List.prefix_append_right_inj, hdata]
      exact Segments.readAt_prefix _ _ _
    have hnil : data = [] ↔ t.received = t.dev.commands.flatten := by
      rw [hdata, Segments.readAt_eq_nil hcount]
      exact ⟨fun h => ht.received_prefix.eq_of_length (by omega), fun h => by rw [← h]⟩
    refine ⟨⟨hdev ▸ ht.inv, ?_, ?_⟩, fun h => absurd h (by simp), fun _ => ⟨?_, fun hne => ?_⟩⟩
    · rw [hreceived, hdev]
      exact hprefix
    · rw [hreceived, hpos, List.length_append, Int.natCast_add, hfPos]
    · rw [← hnil, ← List.length_eq_zero_iff]
      exact Int.natCast_eq_zero
    · have hne' : data ≠ [] := fun h => hne (by simp [h])
      have hlen : 0 < data.length := List.length_pos_iff.mpr hne'
      have hmax : data.length ≤ count := hdata ▸ Segments.length_readAt_le _ _ _
      have hinfix : ∃ c ∈ t.dev.commands, data <:+: c := by
        rw [hdata] at hne' ⊢
        exact Segments.readAt_infix hne'
      exact ⟨by simp only; omega, by simp only; omega, rfl, hinfix⟩

/-- **One write through another file** that evicts nothing keeps the prefix. -/
lemma AtPrefix.write (ht : AtPrefix t) {fPos : ℤ} {buf : UserBuf} {env : WriteEnv} {reply : Reply}
    (h : ReaderStep t (.write fPos buf env reply) u) : AtPrefix u := by
  obtain ⟨hwrite, hevict, hpos, hreceived⟩ := h
  obtain ⟨q, hI⟩ := ht.inv
  have hcommands := commands_prefix_of_write hI hwrite hevict
  refine ⟨?_, ?_, by rw [hpos, hreceived, ht.fPos_eq]⟩
  · rcases aesdWriteWith_cases hI hwrite with ⟨found, hd⟩ | hf
    · exact hd.stored.inv
    · rw [hf.state_eq]
      exact ht.inv
  · rw [hreceived]
    exact ht.received_prefix.trans hcommands.flatten

/-- Neither reads nor writes change whether the lock is held. -/
lemma ReaderStep.lock_eq {l : ReaderLabel} (ht : AtPrefix t) (h : ReaderStep t l u) :
    u.dev.lock = t.dev.lock := by
  cases l with
  | read count env reply => rw [(ht.read h).1]
  | write fPos buf env reply =>
    obtain ⟨q, hI⟩ := ht.inv
    rcases aesdWriteWith_cases hI h.1 with ⟨found, hd⟩ | hf
    · exact hd.stored.lock_eq
    · rw [hf.state_eq]

/-- **With a free lock a read returns**, also one whose lock wait is interrupted. -/
lemma exists_readerStep (hlock : t.dev.lock = false) {count : ℕ} (hcount : 0 < count) {env : ReadEnv}
    (huncopied : env.uncopied = 0) : ∃ reply u, ReaderStep t (.read count env reply) u := by
  obtain ⟨reply, hread⟩ := aesdRead_returns hlock t.fPos count env
  exact ⟨reply, ⟨t.dev, reply.fPos, t.received ++ reply.data⟩, hcount, huncopied, hread, rfl, rfl⟩

/-- **A reader sees a faithful prefix.** Take a reader at position `0` of a device in any reachable
state, and any run of its reads and of writes through other files that evict no command. What it
has received is a prefix of the commands held, oldest first, and its file position is the number
of bytes received. If the lock was free at the start it is free now, and while it is free the next
read returns. A read that returns changes neither the ring nor the pending data; if its lock wait
is interrupted it fails with `-ERESTARTSYS` and moves nothing, otherwise it returns `0` exactly
when the reader has every byte held, and else between `1` and `count` bytes of one command. -/
theorem reader_faithful {fsl : FixedSizeLlseek} {s : Driver} {ls : List ReaderLabel}
    (hs : Reachable fsl s) (hrun : Transition.Run ReaderStep ⟨s, 0, []⟩ ls t) :
    t.received <+: t.dev.commands.flatten ∧ t.fPos = t.received.length ∧
      t.dev.lock = s.lock ∧
      (t.dev.lock = false → ∀ count env, 0 < count → env.uncopied = 0 →
        ∃ reply u, ReaderStep t (.read count env reply) u) ∧
      ∀ count env reply u, ReaderStep t (.read count env reply) u →
        u.dev = t.dev ∧
        (env.interrupted = true → reply.ret = -ERESTARTSYS ∧ u.fPos = t.fPos ∧
          u.received = t.received) ∧
        (env.interrupted = false → FaithfulRead t count reply) := by
  have hinv : AtPrefix t ∧ t.dev.lock = s.lock := by
    refine hrun.invariant (I := fun t => AtPrefix t ∧ t.dev.lock = s.lock)
      ⟨⟨hs.inv, List.nil_prefix, rfl⟩, rfl⟩ ?_
    rintro t l u ⟨ht, hlock⟩ hstep
    refine ⟨?_, (hstep.lock_eq ht).trans hlock⟩
    cases l with
    | read count env reply => exact (ht.read hstep).2.1
    | write fPos buf env reply => exact ht.write hstep
  obtain ⟨ht, hlock⟩ := hinv
  refine ⟨ht.received_prefix, ht.fPos_eq, hlock,
    fun hfree count env hcount huncopied => exists_readerStep hfree hcount huncopied,
    fun count env reply u hstep => ?_⟩
  obtain ⟨hdev, -, hfailed, hfaithful⟩ := ht.read hstep
  exact ⟨hdev, hfailed, hfaithful⟩

/-- A reader of a device that holds `"hi\n"` reads two bytes, then `"a\n"` is written through
another file, and the reader reads on: it has received the bytes of `"hi\n"`, one read each side of
the write. -/
theorem reader_faithful_two_reads :
    ∃ s ls t, Reachable fixedSizeLlseek s ∧ Transition.Run ReaderStep ⟨s, 0, []⟩ ls t ∧
      t.dev.commands = [[104, 105, 10], [97, 10]] ∧ t.received = [104, 105] ∧
      ∃ reply u, ReaderStep t (.read 5 ⟨false, 0⟩ reply) u ∧ FaithfulRead t 5 reply ∧
        u.received = [104, 105, 10] := by
  obtain ⟨s, q, hs, hI, hlock, hcont⟩ := exists_device fixedSizeLlseek [[104, 105, 10]] (by decide)
  have hcommands : s.commands = [[104, 105, 10]] := congrArg Contents.commands hcont
  have hpending : s.pending = [] := congrArg Contents.pending hcont
  have hfull : s.circBuff.full = false := congrArg Contents.full hcont
  have hint : (⟨false, 0⟩ : ReadEnv).interrupted = false := rfl
  -- the first read
  have hread := aesdRead_spec hI hlock (show (0 : ℤ) ≤ 0 by decide) (by decide) 2 hint
  simp only [hcommands] at hread
  have hfirst : ReaderStep ⟨s, 0, []⟩ (.read 2 ⟨false, 0⟩ _) ⟨s, 2, [104, 105]⟩ :=
    ⟨by decide, rfl, hread, rfl, rfl⟩
  -- the write
  obtain ⟨env, s₁, hwrite, hstored⟩ := exists_aesdWrite hI hlock 0 ⟨[97, 10], by decide⟩
    (by rw [hpending]; decide) (by simp)
  have hsecond : ReaderStep ⟨s, 2, [104, 105]⟩ (.write 0 ⟨[97, 10], by decide⟩ env _)
      ⟨s₁, 2, [104, 105]⟩ := ⟨hwrite, .inl hfull, rfl, rfl⟩
  have hcommands₁ : s₁.commands = [[104, 105, 10], [97, 10]] := by
    rw [hstored.commands_eq, hpending, hcommands]
    rfl
  have hrun := (Transition.Run.single hfirst).snoc hsecond
  obtain ⟨-, -, hsame, hreturns, hfaithful⟩ := reader_faithful hs hrun
  -- the second read
  obtain ⟨q₁, hI₁⟩ := hstored.inv
  have hread₁ := aesdRead_spec hI₁ (hsame.trans hlock) (show (0 : ℤ) ≤ 2 by decide) (by decide) 5
    hint
  simp only [hcommands₁] at hread₁
  have hthird : ReaderStep ⟨s₁, 2, [104, 105]⟩ (.read 5 ⟨false, 0⟩ _) ⟨s₁, 3, [104, 105, 10]⟩ :=
    ⟨by decide, rfl, hread₁, rfl, rfl⟩
  exact ⟨s, _, _, hs, hrun, hcommands₁, rfl, _, _, hthird, (hfaithful _ _ _ _ hthird).2.2 rfl, rfl⟩

/-- An interrupted read of the initialised device returns `-ERESTARTSYS`, not `0`. -/
theorem reader_faithful_fails :
    ¬∀ (fsl : FixedSizeLlseek) (s : Driver) (ls : List ReaderLabel) (t u : ReaderState) (count : ℕ)
      (env : ReadEnv) (reply : Reply), Reachable fsl s →
      Transition.Run ReaderStep ⟨s, 0, []⟩ ls t → ReaderStep t (.read count env reply) u →
      FaithfulRead t count reply := by
  intro h
  have hfaithful := h fixedSizeLlseek (initialDriver 0) [] ⟨initialDriver 0, 0, []⟩
    ⟨initialDriver 0, 0, []⟩ 1 ⟨true, 0⟩ { ret := -ERESTARTSYS, fPos := 0 }
    (reachable_initialDriver _ 0) .nil ⟨by decide, rfl, rfl, rfl, rfl⟩
  exact absurd (hfaithful.1.mpr rfl) (by decide)

end Aesd
