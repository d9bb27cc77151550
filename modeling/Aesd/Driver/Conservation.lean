import Aesd.Driver.LogRefinement

set_option relaxedAutoImplicit false
set_option autoImplicit false

/-!
# No accepted byte is lost

The law of the write path, for any outcome of the newline scan: what was ever committed, in commit
order, followed by what is pending, is what the calls accepted, in call order.

## Main definitions

* `Aesd.WriteLabel`, `Aesd.WriteStep` — one write with any newline scan, and what it commits.
* `Aesd.WriteLabel.accepted` — the bytes a write accepts: the first `r` of its buffer when it
  returns `r ≥ 0`, none when it fails.

## Main results

* `Aesd.write_conservation` — conservation over any run of writes.
-/

namespace Aesd

/-- A write with its arguments, its outcomes, the newline scan it uses, its reply and the command
it commits. -/
structure WriteLabel where
  scan : Block → ℕ → Option Bool
  fPos : ℤ
  buf : UserBuf
  env : WriteEnv
  reply : Reply
  committed : Option (List Byte)

/-- One write. -/
def WriteStep (s : Driver) (l : WriteLabel) (s' : Driver) : Prop :=
  aesdWriteWith l.scan s l.fPos l.buf l.env = some (l.reply, s') ∧ l.committed = committedBy s s'

/-- The bytes a write accepts. -/
def WriteLabel.accepted (l : WriteLabel) : List Byte :=
  if 0 ≤ l.reply.ret then l.buf.bytes.take l.reply.ret.toNat else []

/-- The history after the writes `ls`, from what they committed, with the bytes pending now. -/
def history (ls : List WriteLabel) (s : Driver) : CommandLog Byte :=
  ⟨ls.filterMap (·.committed), s.pending⟩

variable {s s' : Driver} {l : WriteLabel}

/-- **One write.** It fails and changes nothing, or it accepts as many bytes as it says, advances
the file position by as many and appends them to the history. -/
lemma WriteStep.cases (hI : ∃ q, Inv s q []) (h : WriteStep s l s') :
    (l.reply.ret < 0 ∧ l.reply.fPos = l.fPos ∧ s' = s ∧ l.committed = none) ∨
      (0 ≤ l.reply.ret ∧ l.reply.ret ≤ l.buf.bytes.length ∧
        l.reply.fPos = signed64 (l.fPos + l.reply.ret) ∧ (∃ q, Inv s' q []) ∧
        ∃ found, Stored s (s.pending ++ l.accepted) found s' ∧
          l.committed = if found then some (s.pending ++ l.accepted) else none) := by
  obtain ⟨q, hI⟩ := hI
  obtain ⟨hwrite, hcommitted⟩ := h
  rcases aesdWriteWith_cases hI hwrite with ⟨found, hd⟩ | hf
  · refine .inr ?_
    have hret : l.reply.ret = (l.env.copied l.buf : ℤ) := by rw [hd.reply_eq]
    have hacc : s.pending ++ l.accepted = accumulated s l.buf l.env := by
      rw [WriteLabel.accepted, if_pos (by omega), hret, Int.toNat_natCast, accumulated]
    have hle := l.env.copied_le l.buf
    refine ⟨by omega, by omega, ?_, hd.stored.inv, found, ?_, ?_⟩
    · rw [hret, hd.reply_eq]
    · rw [hacc]
      exact hd.stored
    · rw [hcommitted, hacc]
      exact hd.stored.committedBy_eq
  · refine .inl ⟨?_, hf.fPos_eq, hf.state_eq, ?_⟩
    · rcases hf.ret_eq with h | h <;> rw [h] <;> decide
    · rw [hcommitted]
      exact committedBy_of_eq (congrArg Driver.circBuff hf.state_eq)

/-- One write appends what it accepts to the history. -/
lemma WriteStep.history {ls : List WriteLabel} (hI : ∃ q, Inv s q [])
    (hs : s.contents = logContents (history ls s)) (h : WriteStep s l s') :
    (∃ q, Inv s' q []) ∧ s'.contents = logContents (Aesd.history (ls ++ [l]) s') ∧
      (Aesd.history (ls ++ [l]) s').bytes = (Aesd.history ls s).bytes ++ l.accepted := by
  rcases h.cases hI with ⟨hneg, -, rfl, hnone⟩ | ⟨-, -, -, hI', found, hstored, hcommitted⟩
  · have hacc : l.accepted = [] := if_neg (by omega)
    have hsame : Aesd.history (ls ++ [l]) s' = Aesd.history ls s' := by
      simp [Aesd.history, hnone]
    exact ⟨hI, hsame ▸ hs, by rw [hsame, hacc, List.append_nil]⟩
  · have happend : Aesd.history (ls ++ [l]) s' = (Aesd.history ls s).append l.accepted found := by
      cases found <;> simp [Aesd.history, CommandLog.append, hcommitted, hstored.pending_eq]
    refine ⟨hI', ?_, ?_⟩
    · rw [happend]
      exact hstored.contents_eq hs
    · rw [happend, CommandLog.append_bytes]

/-- **No accepted byte is lost, duplicated or reordered.** After any run of writes from the
initialisation, with any newline scans: the commands committed so far, in commit order, followed
by the pending bytes, are the bytes the writes accepted; the ring holds the last ten commands
committed. Of any next write: if it returns a negative value, it leaves the device and the file
position as they were; if it returns `r ≥ 0`, it advances the file position by `r`. -/
theorem write_conservation {s₀ s : Driver} {ls : List WriteLabel} (h0 : Initialised s₀)
    (hrun : Transition.Run WriteStep s₀ ls s) :
    (ls.filterMap (·.committed)).flatten ++ s.pending = (ls.map (·.accepted)).flatten ∧
      s.commands = (ls.filterMap (·.committed)).rtake 10 ∧
      ∀ l s', WriteStep s l s' →
        (l.reply.ret < 0 → s' = s ∧ l.reply.fPos = l.fPos) ∧
        (0 ≤ l.reply.ret → l.reply.fPos = signed64 (l.fPos + l.reply.ret) ∧
          (0 ≤ l.fPos → l.fPos + l.buf.bytes.length < 2 ^ 63 →
            l.reply.fPos = l.fPos + l.reply.ret)) := by
  have hinv : (∃ q, Inv s q []) ∧ s.contents = logContents (history ls s) ∧
      (history ls s).bytes = (ls.map (·.accepted)).flatten := by
    refine hrun.invariant_labels (I := fun ls s => (∃ q, Inv s q []) ∧
      s.contents = logContents (history ls s) ∧
      (history ls s).bytes = (ls.map (·.accepted)).flatten) ?_ ?_
    · obtain ⟨g, rfl⟩ := initialised_iff.mp h0
      exact ⟨⟨[], inv_initialDriver g⟩, contents_initialDriver g, rfl⟩
    · rintro ls t l u - ⟨hI, hcont, hbytes⟩ hstep
      obtain ⟨hI', hcont', hbytes'⟩ := hstep.history hI hcont
      refine ⟨hI', hcont', ?_⟩
      rw [hbytes', hbytes, List.map_append, List.flatten_append, List.map_singleton,
        List.flatten_singleton]
  obtain ⟨hI, hcont, hbytes⟩ := hinv
  refine ⟨hbytes, congrArg Contents.commands hcont, fun l s' hstep => ?_⟩
  rcases hstep.cases hI with ⟨hneg, hpos, rfl, -⟩ | ⟨hret, hle, hpos, -, -⟩
  · exact ⟨fun _ => ⟨rfl, hpos⟩, fun h => absurd hneg (by omega)⟩
  · refine ⟨fun h => absurd hret (by omega), fun _ => ⟨hpos, fun h0 hlt => ?_⟩⟩
    rw [hpos, signed64_of_lt (by omega) (by omega)]

/-- A write of `"hi\n"` to the initialised device, whose newline scan answers yes. -/
theorem write_conservation_first_write :
    ∃ l s, WriteStep (initialDriver 0) l s ∧ l.buf.bytes = [104, 105, 10] ∧
      (([l].filterMap (·.committed)).flatten ++ s.pending = ([l].map (·.accepted)).flatten) := by
  obtain ⟨env, ha, -, -⟩ := exists_allocates (inv_initialDriver 0) ⟨[104, 105, 10], by decide⟩
    (fun _ => 0) 0 (by decide)
  let scan : Block → ℕ → Option Bool := fun _ _ => some true
  obtain ⟨s, hwrite, -⟩ :
      ∃ s, aesdWriteWith scan (initialDriver 0) 0 _ env = some (_, s) ∧ Stored _ _ true s :=
    aesdWriteWith_of_found 0 (inv_initialDriver 0) rfl ha rfl
  refine ⟨⟨_, _, _, _, _, committedBy (initialDriver 0) s⟩, s, ⟨hwrite, rfl⟩, rfl, ?_⟩
  exact (write_conservation (initialised_iff.mpr ⟨0, rfl⟩)
    (Transition.Run.single ⟨hwrite, rfl⟩)).1

end Aesd
