import Aesd.Driver.CommitDecision

set_option relaxedAutoImplicit false
set_option autoImplicit false

/-!
# When a read signals the end of the file

A read that finds nothing at its position returns `0`, and so does a read whose `copy_to_user`
copies nothing. Only the first is the end of the file.

## Main definitions

* `Aesd.SignalsEof` — the read returns `0` exactly at the end, and otherwise delivers bytes or
  fails.
* `Aesd.CopiesSome` — the outcomes under which it does.

## Main results

* `Aesd.read_signals_eof` — a read signals the end of the file as it should exactly under these
  outcomes.
-/

namespace Aesd

/-- The reply of a read at `fPos` that answers as it should: it returns `0` exactly if the position
is at or beyond the end of the commands, and else the positive number of bytes it delivers from
there or a negative error number; it advances the position by the number of bytes it returns. -/
structure EofReply (s : Driver) (fPos : ℤ) (reply : Reply) : Prop where
  zero_iff : reply.ret = 0 ↔ (s.commands.flatten.length : ℤ) ≤ fPos
  delivers : fPos < s.commands.flatten.length →
    (0 < reply.ret ∧ reply.ret = reply.data.length ∧
      reply.data <+: s.commands.flatten.drop fPos.toNat) ∨ reply.ret < 0
  fPos_eq : reply.fPos = fPos + max reply.ret 0

/-- The read returns without changing the device and answers as it should. -/
def SignalsEof (s : Driver) (fPos : ℤ) (count : ℕ) (env : ReadEnv) : Prop :=
  ∃ reply, aesdRead s fPos count env = some (reply, s) ∧ EofReply s fPos reply

/-- The outcomes of a read under which it can answer as it should: it gets the lock, and if there
is something to read, `copy_to_user` copies some of it; or its lock wait is interrupted, and it is
not at the end. -/
def CopiesSome (s : Driver) (fPos : ℤ) (count : ℕ) (env : ReadEnv) : Prop :=
  (env.interrupted = false ∧ s.lock = false ∧
    (fPos < s.commands.flatten.length →
      env.uncopied < (Segments.readAt s.commands fPos.toNat count).length)) ∨
  (env.interrupted = true ∧ fPos < s.commands.flatten.length)

variable {fsl : FixedSizeLlseek} {s : Driver} {q : List AesdBufferEntry} {fPos : ℤ} {count : ℕ}
  {env : ReadEnv}

/-- The answer of a read that returns. -/
lemma signalsEof_iff {reply : Reply} (hread : aesdRead s fPos count env = some (reply, s)) :
    SignalsEof s fPos count env ↔ EofReply s fPos reply := by
  constructor
  · rintro ⟨reply', hreply', heof⟩
    rw [hread] at hreply'
    obtain ⟨rfl, -⟩ := Prod.mk.inj (Option.some.inj hreply')
    exact heof
  · intro heof
    exact ⟨reply, hread, heof⟩

/-- A read whose lock wait is interrupted fails, which is right before the end. -/
lemma signalsEof_of_interrupted (hint : env.interrupted = true) :
    SignalsEof s fPos count env ↔ fPos < s.commands.flatten.length := by
  have hneg : -ERESTARTSYS < 0 := by decide
  rw [signalsEof_iff (aesdRead_of_interrupted s fPos count hint)]
  constructor
  · intro heof
    have hzero : -ERESTARTSYS = 0 ↔ _ := heof.zero_iff
    omega
  · intro hbefore
    refine ⟨iff_of_false hneg.ne (by omega), fun _ => .inr hneg, ?_⟩
    show fPos = fPos + max (-ERESTARTSYS) 0
    omega

/-- **A read that gets the lock** signals the end of the file as it should exactly if it is at the
end or delivers something.

**Proof sketch.** The read delivers what is left of the bytes at its position when the uncopied
ones are taken away. There are bytes at the position exactly before the end, so that the number
delivered is `0` at the end, and before it exactly if all bytes are left uncopied. -/
lemma signalsEof_of_lock_free (hI : Inv s q []) (hlock : s.lock = false) (h0 : 0 ≤ fPos)
    (hlt : fPos < 2 ^ 63) (hcount : 0 < count) (hint : env.interrupted = false) :
    SignalsEof s fPos count env ↔
      (fPos < s.commands.flatten.length →
        env.uncopied < (Segments.readAt s.commands fPos.toNat count).length) := by
  rw [signalsEof_iff (aesdRead_spec hI hlock h0 hlt count hint)]
  have hprefix := Segments.readAt_prefix s.commands fPos.toNat count
  have hnil : Segments.readAt s.commands fPos.toNat count = [] ↔ _ := Segments.readAt_eq_nil hcount
  set data := Segments.readAt s.commands fPos.toNat count
  set n := data.length - min env.uncopied data.length
  have hend : data.length = 0 ↔ (s.commands.flatten.length : ℤ) ≤ fPos := by
    rw [List.length_eq_zero_iff, hnil]
    omega
  constructor
  · intro heof hbefore
    have hzero : (n : ℤ) = 0 ↔ _ := heof.zero_iff
    omega
  · intro huncopied
    refine ⟨?_, fun hbefore => .inl ⟨?_, ?_, (List.take_prefix _ _).trans hprefix⟩, ?_⟩
    · show (n : ℤ) = 0 ↔ _
      rw [← hend]
      rcases Nat.eq_zero_or_pos data.length with hzero | hpos
      · omega
      · have hbefore := huncopied (by omega)
        omega
    · have hcopied := huncopied hbefore
      show (0 : ℤ) < n
      omega
    · show (n : ℤ) = (data.take n).length
      rw [List.length_take]
      omega
    · show fPos + n = fPos + max (n : ℤ) 0
      omega

/-- **A read signals the end of the file only at the end, if `copy_to_user` copies something.** In
every reachable state, at every position, with every count and all outcomes of the lock wait and of
the copy: the read answers as it should exactly if it gets the lock and is at the end or copies at
least one byte, or is interrupted before the end. -/
theorem read_signals_eof (hs : Reachable fsl s) (h0 : 0 ≤ fPos) (hlt : fPos < 2 ^ 63)
    (hcount : 0 < count) (env : ReadEnv) :
    SignalsEof s fPos count env ↔ CopiesSome s fPos count env := by
  obtain ⟨q, hI⟩ := hs.inv
  cases hint : env.interrupted with
  | true =>
    rw [signalsEof_of_interrupted hint, CopiesSome, hint]
    simp
  | false =>
    cases hlock : s.lock with
    | true =>
      have hread := aesdRead_of_lock hlock fPos count hint
      refine iff_of_false ?_ ?_
      · rintro ⟨reply, hreply, -⟩
        exact absurd (hread.symm.trans hreply) (by simp)
      · simp [CopiesSome, hint, hlock]
    | false =>
      rw [signalsEof_of_lock_free hI hlock h0 hlt hcount hint, CopiesSome, hint, hlock]
      simp

/-- On a device with the lines `"hi\n"` and `"abc\n"` a read of four bytes at position `1` whose
`copy_to_user` leaves one of the two bytes of the line uncopied does not signal the end of the file,
and one at position `7` does. -/
theorem read_signals_eof_two_lines :
    ∃ s, Reachable fixedSizeLlseek s ∧ s.commands = [[104, 105, 10], [97, 98, 99, 10]] ∧
      SignalsEof s 1 4 ⟨false, 1⟩ ∧ SignalsEof s 7 4 ⟨false, 0⟩ := by
  obtain ⟨s, q, hs, -, hlock, hcont⟩ :=
    exists_device fixedSizeLlseek [[104, 105, 10], [97, 98, 99, 10]] (by decide)
  have hcommands : s.commands = [[104, 105, 10], [97, 98, 99, 10]] :=
    congrArg Contents.commands hcont
  refine ⟨s, hs, hcommands, ?_, ?_⟩
  · refine (read_signals_eof hs (by decide) (by decide) (by decide) _).mpr (.inl ⟨rfl, hlock, ?_⟩)
    rw [hcommands]
    decide
  · refine (read_signals_eof hs (by decide) (by decide) (by decide) _).mpr (.inl ⟨rfl, hlock, ?_⟩)
    rw [hcommands]
    decide

/-- After a write of `"hi\n"`, a read of one byte at position `0` whose `copy_to_user` copies
nothing returns `0`. -/
theorem read_signals_eof_fails :
    ¬∀ (fsl : FixedSizeLlseek) (s : Driver) (fPos : ℤ) (count : ℕ) (env : ReadEnv),
      Reachable fsl s → s.lock = false → 0 ≤ fPos → fPos < 2 ^ 63 → 0 < count →
      env.interrupted = false → SignalsEof s fPos count env := by
  intro h
  obtain ⟨s, q, hs, hI, hlock, hcont⟩ :=
    exists_device fixedSizeLlseek [[104, 105, 10]] (by decide)
  have hcommands : s.commands = [[104, 105, 10]] := congrArg Contents.commands hcont
  have heof := h fixedSizeLlseek s 0 1 ⟨false, 1⟩ hs hlock le_rfl (by decide)
    Nat.one_pos rfl
  rw [signalsEof_of_lock_free hI hlock le_rfl (by decide) Nat.one_pos rfl, hcommands] at heof
  exact absurd (heof (by decide)) (by decide)

end Aesd
