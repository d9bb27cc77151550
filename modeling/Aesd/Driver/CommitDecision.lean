import Aesd.Driver.LogRefinement

set_option relaxedAutoImplicit false
set_option autoImplicit false

/-!
# The commit decision

A write is meant to commit what it accumulated exactly when there is a newline in it. The newline
scan runs to `i <= size`, one byte further: without a newline in the accumulated bytes it also
examines the byte after them, and commits if that one happens to be a newline. After a partial copy
this is one of the zeros that `copy_from_user` stores; after a complete one it is the first byte
after the block. If the block is empty there is no such byte, and the scan faults.

## Main definitions

* `Aesd.Decided` — the device committed or kept the accumulated bytes as it should.
* `Aesd.StrayOk` — the byte after the accumulated bytes does not matter to the decision.
* `Aesd.newlineLog` — the log of commands that newlines complete.

## Main results

* `Aesd.aesdWrite_of_allocates` — a write that does not fault.
* `Aesd.commit_decision` — when the decision of one write is right, and what follows for runs.
-/

namespace Aesd

/-! ## The newline scan -/

/-- The scan finds a newline among the bytes it runs over. -/
lemma newlineLoop_found (bytes : ℕ → Byte) (size fuel i : ℕ) :
    (newlineLoop bytes size fuel i).1 = true ↔
      ∃ j, i ≤ j ∧ j < i + fuel ∧ j ≤ size ∧ bytes j = newline := by
  induction fuel generalizing i with
  | zero =>
    rw [newlineLoop]
    apply iff_of_false Bool.false_ne_true
    rintro ⟨j, h1, h2, -⟩
    omega
  | succ fuel ih =>
    rw [newlineLoop]
    split_ifs with hi hb
    · exact iff_of_true rfl ⟨i, Nat.le_refl _, by omega, hi, hb⟩
    · rw [ih (i + 1)]
      constructor
      · rintro ⟨j, h1, h2, h3, h4⟩
        exact ⟨j, by omega, by omega, h3, h4⟩
      · rintro ⟨j, h1, h2, h3, h4⟩
        have hne : j ≠ i := by
          rintro rfl
          exact hb h4
        exact ⟨j, by omega, by omega, h3, h4⟩
    · apply iff_of_false id
      rintro ⟨j, h1, -, h3, -⟩
      omega

/-- The scan examines the bytes up to the first newline. -/
lemma newlineLoop_examined (bytes : ℕ → Byte) (size fuel i j : ℕ) :
    j ∈ (newlineLoop bytes size fuel i).2 ↔
      i ≤ j ∧ j < i + fuel ∧ j ≤ size ∧ ∀ k, i ≤ k → k < j → bytes k ≠ newline := by
  induction fuel generalizing i with
  | zero =>
    simp only [newlineLoop, List.not_mem_nil, false_iff]
    rintro ⟨h1, h2, -⟩
    omega
  | succ fuel ih =>
    rw [newlineLoop]
    split_ifs with hi hb
    · rw [List.mem_singleton]
      constructor
      · rintro rfl
        exact ⟨Nat.le_refl _, by omega, hi, fun k h1 h2 => by omega⟩
      · rintro ⟨h1, -, -, h4⟩
        by_contra hne
        exact h4 i (Nat.le_refl _) (by omega) hb
    · rw [List.mem_cons, ih (i + 1)]
      constructor
      · rintro (rfl | ⟨h1, h2, h3, h4⟩)
        · exact ⟨Nat.le_refl _, by omega, hi, fun k h1 h2 => by omega⟩
        · refine ⟨by omega, by omega, h3, fun k hk hkj => ?_⟩
          rcases Nat.eq_or_lt_of_le hk with rfl | hk
          · exact hb
          · exact h4 k hk hkj
      · rintro ⟨h1, h2, h3, h4⟩
        rcases Nat.eq_or_lt_of_le h1 with rfl | h1
        · exact .inl rfl
        · exact .inr ⟨h1, by omega, h3, fun k hk hkj => h4 k (by omega) hkj⟩
    · simp only [List.not_mem_nil, false_iff]
      rintro ⟨h1, -, h3, -⟩
      omega

section Write

variable (s : Driver) (buf : UserBuf) (env : WriteEnv)

/-- The scan of a write answers yes if there is a newline in the accumulated bytes or just after
them. -/
lemma newlineScan_found :
    (newlineScan (scannedBytes s buf env) (accumulated s buf env).length).1 = true ↔
      newline ∈ accumulated s buf env ∨
        scannedBytes s buf env (accumulated s buf env).length = newline := by
  set acc := accumulated s buf env with hacc
  rw [newlineScan, newlineLoop_found]
  constructor
  · rintro ⟨j, -, -, hj, hnl⟩
    rcases Nat.lt_or_ge j acc.length with hlt | hge
    · rw [scannedBytes_of_lt s buf env hlt] at hnl
      exact .inl (hnl ▸ List.getElem_mem hlt)
    · obtain rfl : j = acc.length := by omega
      exact .inr hnl
  · rintro (hmem | hstray)
    · obtain ⟨j, hj, hnl⟩ := List.mem_iff_getElem.mp hmem
      exact ⟨j, Nat.zero_le _, by omega, by omega, (scannedBytes_of_lt s buf env hj).trans hnl⟩
    · exact ⟨acc.length, Nat.zero_le _, by omega, Nat.le_refl _, hstray⟩

/-- The scan of a write stays within the accumulated bytes exactly if there is a newline in
them. -/
lemma newlineScan_examined :
    (∀ i ∈ (newlineScan (scannedBytes s buf env) (accumulated s buf env).length).2,
      i < (accumulated s buf env).length) ↔ newline ∈ accumulated s buf env := by
  set acc := accumulated s buf env with hacc
  rw [newlineScan]
  constructor
  · intro h
    by_contra hnot
    -- without a newline the scan comes to the byte after the accumulated ones
    have hlast := h acc.length ((newlineLoop_examined _ _ _ _ _).mpr
      ⟨Nat.zero_le _, by omega, Nat.le_refl _, fun k _ hk hnl => ?_⟩)
    · omega
    · rw [scannedBytes_of_lt s buf env hk] at hnl
      exact hnot (hnl ▸ List.getElem_mem hk)
  · intro hmem i hi
    obtain ⟨j, hj, hnl⟩ := List.mem_iff_getElem.mp hmem
    obtain ⟨-, -, -, hfirst⟩ := (newlineLoop_examined _ _ _ _ _).mp hi
    by_contra hge
    apply hfirst j (Nat.zero_le _) (by omega)
    rw [scannedBytes_of_lt s buf env hj, hnl]

end Write

/-! ## The decision -/

variable {fsl : FixedSizeLlseek} {s s' : Driver}

/-- The accumulated bytes `acc` were moved into the ring if they contain a newline, and are
pending otherwise. -/
def Decided (s : Driver) (acc : List Byte) (s' : Driver) : Prop :=
  committedBy s s' = (if newline ∈ acc then some acc else none) ∧
    s'.commands = (if newline ∈ acc then (s.commands ++ [acc]).rtake 10 else s.commands) ∧
    s'.pending = if newline ∈ acc then [] else acc

/-- The byte after the bytes that a write accumulates does not change its decision. -/
def StrayOk (s : Driver) : Call → Prop
  | .write _ buf env => Allocates s buf env → newline ∈ accumulated s buf env ∨
      scannedBytes s buf env (accumulated s buf env).length ≠ newline
  | _ => True

/-- What the scan of a write that does not fault answers. -/
lemma scanBlock_eq_some {buf : UserBuf} {env : WriteEnv} {found : Bool} :
    scanBlock (scannedBlock s buf env) (accumulated s buf env).length = some found ↔
      buf.bytes.length + s.pending.length ≠ 0 ∧ (found = true ↔ newline ∈ accumulated s buf env ∨
        scannedBytes s buf env (accumulated s buf env).length = newline) := by
  rw [scanBlock, ← newlineScan_found, ← Bool.eq_iff_iff]
  show (if buf.bytes.length + s.pending.length = 0 then none else _) = some found ↔ _
  split_ifs with hempty
  · simp [hempty]
  · rw [Option.some.injEq, eq_comm]
    exact (and_iff_right hempty).symm

/-- **A write that gets the lock and its allocations**, and whose block is not empty, commits what it
accumulated if there is a newline in it or just after it, and otherwise keeps it. -/
lemma aesdWrite_of_allocates {q : List AesdBufferEntry} {buf : UserBuf} {env : WriteEnv} (fPos : ℤ)
    (hI : Inv s q []) (hlock : s.lock = false) (ha : Allocates s buf env)
    (hne : buf.bytes.length + s.pending.length ≠ 0) :
    ∃ found s', (found = true ↔ newline ∈ accumulated s buf env ∨
        scannedBytes s buf env (accumulated s buf env).length = newline) ∧
      aesdWrite s fPos buf env =
        some ({ ret := env.copied buf, fPos := signed64 (fPos + env.copied buf) }, s') ∧
      Stored s (accumulated s buf env) found s' := by
  have hfound : scanBlock (scannedBlock s buf env) (accumulated s buf env).length = some _ :=
    scanBlock_eq_some.mpr ⟨hne, newlineScan_found s buf env⟩
  obtain ⟨s', hwrite, hstored⟩ := aesdWriteWith_of_found fPos hI hlock ha hfound
  exact ⟨_, s', newlineScan_found s buf env, hwrite, hstored⟩

/-- A write decides right exactly when the scan answers right. -/
lemma Stored.decided_iff {acc : List Byte} {found : Bool} (h : Stored s acc found s') :
    Decided s acc s' ↔ (found = true ↔ newline ∈ acc) := by
  have hcommitted := h.committedBy_eq
  have hcommands := h.commands_eq
  have hpending := h.pending_eq
  by_cases hmem : newline ∈ acc <;> cases found <;>
    simp_all [Decided]

/-- The decision of a write is right exactly if there is a newline in the accumulated bytes, or
none just after them. -/
lemma decided_iff {fPos : ℤ} {buf : UserBuf} {env : WriteEnv} {found : Bool} {reply : Reply}
    (h : WriteDone scanBlock s fPos buf env found reply s') :
    Decided s (accumulated s buf env) s' ↔ newline ∈ accumulated s buf env ∨
      scannedBytes s buf env (accumulated s buf env).length ≠ newline := by
  rw [h.stored.decided_iff, (scanBlock_eq_some.mp h.found_eq).2]
  tauto

/-! ## Runs -/

/-- The bytes a call accepts: the first `r` of its buffer for a write that returns `r ≥ 0`. -/
def accepted : Call × Reply → Option (List Byte)
  | (.write _ buf _, reply) => if 0 ≤ reply.ret then some (buf.bytes.take reply.ret.toNat) else none
  | _ => none

/-- The log of commands when newlines complete them. -/
def newlineLog (pieces : List (List Byte)) : CommandLog Byte :=
  pieces.foldl (fun d piece => d.append piece (newline ∈ d.pending ++ piece)) .empty

lemma newlineLog_concat (pieces : List (List Byte)) (piece : List Byte) :
    newlineLog (pieces ++ [piece]) = (newlineLog pieces).append piece
      (newline ∈ (newlineLog pieces).pending ++ piece) := by
  rw [newlineLog, List.foldl_append]
  rfl

/-- In a log that newlines complete every command has a newline and the pending bytes have
none. -/
lemma newlineLog_sound (pieces : List (List Byte)) : (newlineLog pieces).Sound (newline ∈ ·) := by
  induction pieces using List.reverseRecOn with
  | nil => exact ⟨by simp [newlineLog, CommandLog.empty], List.not_mem_nil⟩
  | append_singleton pieces piece ih =>
    rw [newlineLog_concat]
    exact CommandLog.append_sound ih List.not_mem_nil piece (decide_eq_true_iff)

/-- A write that stored accepts the piece it appended to the pending bytes. -/
lemma WriteDone.accepted_eq {scan : Block → ℕ → Option Bool} {fPos : ℤ} {buf : UserBuf}
    {env : WriteEnv} {found : Bool} {reply : Reply}
    (h : WriteDone scan s fPos buf env found reply s') :
    accepted (.write fPos buf env, reply) = some (buf.bytes.take (env.copied buf)) := by
  have hret : reply.ret = (env.copied buf : ℤ) := by rw [h.reply_eq]
  rw [accepted, if_pos (by omega), hret, Int.toNat_natCast]

/-- A write that failed accepts nothing. -/
lemma WriteFailed.accepted_eq {fPos : ℤ} {buf : UserBuf} {env : WriteEnv} {reply : Reply}
    (h : WriteFailed s fPos reply s') : accepted (.write fPos buf env, reply) = none := by
  rw [accepted, if_neg]
  rcases h.ret_eq with hr | hr <;> rw [hr] <;> decide

/-- **One call in a run without decisive stray bytes** appends what it accepts to the log. -/
lemma contents_of_call {q : List AesdBufferEntry} {c : Call} {reply : Reply}
    {pieces : List (List Byte)} (hI : Inv s q [])
    (hcont : s.contents = logContents (newlineLog pieces))
    (hstray : StrayOk s c) (h : exec fsl s c = some (reply, s')) :
    s'.contents = logContents (newlineLog (pieces ++ (accepted (c, reply)).toList)) := by
  cases c with
  | write fPos buf env =>
    rcases aesdWriteWith_cases hI h with ⟨found, hd⟩ | hf
    · rw [hd.accepted_eq, Option.toList_some, newlineLog_concat]
      set piece := buf.bytes.take (env.copied buf) with hpiece
      have hpend : s.pending = (newlineLog pieces).pending := congrArg Contents.pending hcont
      have hacc : accumulated s buf env = s.pending ++ piece := rfl
      have hfound : found = decide (newline ∈ (newlineLog pieces).pending ++ piece) := by
        have hdecided := hd.stored.decided_iff.mp ((decided_iff hd).mpr (hstray hd.allocates))
        rw [Bool.eq_iff_iff, hdecided, hacc, hpend, decide_eq_true_iff]
      have hstored := hd.stored
      rw [hfound, hacc] at hstored
      exact hstored.contents_eq hcont
    · rw [hf.accepted_eq, hf.state_eq, Option.toList_none, List.append_nil]
      exact hcont
  | read fPos count env =>
    rw [aesdRead_state h, show accepted (_, reply) = none from rfl, Option.toList_none,
      List.append_nil]
    exact hcont
  | llseek fPos offset whence =>
    obtain ⟨-, rfl⟩ := Prod.mk.inj (Option.some.inj h)
    rw [show accepted (_, reply) = none from rfl, Option.toList_none, List.append_nil]
    exact hcont
  | ioctl fPos cmd env =>
    rw [show accepted (_, reply) = none from rfl, Option.toList_none, List.append_nil]
    rcases aesdIoctl_state h with rfl | ⟨-, rfl⟩
    · exact hcont
    · exact hcont

/-- **The device is the log of what the writes accepted**, in a run in which no stray byte changes
a decision. -/
lemma contents_of_run {s₀ : Driver} {cs : List (Call × Reply)} (h0 : Initialised s₀)
    (hrun : Transition.Run (Transition.guarded (fun t l => StrayOk t l.1) (CallStep fsl)) s₀ cs s) :
    s.contents = logContents (newlineLog (cs.filterMap accepted)) := by
  have hinv : (∃ q, Inv s q []) ∧ s.contents = logContents (newlineLog (cs.filterMap accepted)) := by
    refine hrun.invariant_labels (I := fun cs s => (∃ q, Inv s q []) ∧
      s.contents = logContents (newlineLog (cs.filterMap accepted))) ?_ ?_
    · obtain ⟨g, rfl⟩ := initialised_iff.mp h0
      exact ⟨⟨[], inv_initialDriver g⟩, contents_initialDriver g⟩
    · rintro cs t ⟨c, reply⟩ u - ⟨⟨q, hI⟩, hcont⟩ ⟨hstray, hstep⟩
      refine ⟨exec_inv hI hstep, ?_⟩
      have hlast : [(c, reply)].filterMap accepted = (accepted (c, reply)).toList := by
        cases h : accepted (c, reply) <;> simp [h]
      rw [List.filterMap_append, hlast]
      exact contents_of_call hI hcont hstray hstep
  exact hinv.2

/-- No pending byte is a newline, in any reachable state: the scan examines at least the
accumulated bytes. -/
lemma newline_not_mem_pending (hs : Reachable fsl s) : newline ∉ s.pending := by
  obtain ⟨s₀, cs, h0, hrun⟩ := hs
  have hinv : (∃ q, Inv s q []) ∧ newline ∉ s.pending := by
    refine hrun.invariant (I := fun t => (∃ q, Inv t q []) ∧ newline ∉ t.pending) ?_ ?_
    · obtain ⟨g, rfl⟩ := initialised_iff.mp h0
      exact ⟨⟨[], inv_initialDriver g⟩, List.not_mem_nil⟩
    · rintro t ⟨c, reply⟩ u ⟨⟨q, hI⟩, hnot⟩ hstep
      refine ⟨exec_inv hI hstep, ?_⟩
      rcases exec_cases hI hstep with rfl | ⟨-, rfl⟩ | ⟨fPos, buf, env, found, -, hd⟩
      · exact hnot
      · exact hnot
      · rw [hd.stored.pending_eq]
        split_ifs with hfound
        · exact List.not_mem_nil
        · exact fun hmem => hfound ((scanBlock_eq_some.mp hd.found_eq).2.mpr (.inl hmem))
  exact hinv.2

/-- A write that gets its allocations and returns has stored what it accumulated. -/
lemma writeDone_of_allocates {q : List AesdBufferEntry} {fPos : ℤ} {buf : UserBuf} {env : WriteEnv}
    {reply : Reply} (hI : Inv s q []) (ha : Allocates s buf env)
    (h : aesdWrite s fPos buf env = some (reply, s')) :
    ∃ found, WriteDone scanBlock s fPos buf env found reply s' := by
  rcases aesdWriteWith_cases hI h with hd | hf
  · exact hd
  · cases hlock : s.lock with
    | true =>
      rw [aesdWrite, aesdWriteWith_of_lock hlock, ha.not_interrupted] at h
      exact absurd h (by simp)
    | false =>
      have hne : buf.bytes.length + s.pending.length ≠ 0 := fun hempty => by
        rw [(aesdWrite_eq_none hI hlock).mpr ⟨ha, hempty⟩] at h
        exact absurd h (by simp)
      obtain ⟨found, t, -, hrun, -⟩ := aesdWrite_of_allocates fPos hI hlock ha hne
      obtain ⟨rfl, -⟩ := Prod.mk.inj (Option.some.inj (hrun.symm.trans h))
      rcases hf.ret_eq with hret | hret
      · exact absurd hret (by rw [ERESTARTSYS]; simp only; omega)
      · exact absurd hret (by rw [ENOMEM]; simp only; omega)

/-- A write that does not get the lock or its allocations changes nothing. -/
lemma write_of_not_allocates {q : List AesdBufferEntry} {fPos : ℤ} {buf : UserBuf} {env : WriteEnv}
    {reply : Reply} (hI : Inv s q []) (ha : ¬Allocates s buf env)
    (h : aesdWrite s fPos buf env = some (reply, s')) : s' = s := by
  rcases aesdWriteWith_cases hI h with ⟨found, hd⟩ | hf
  · exact absurd hd.allocates ha
  · exact hf.state_eq

/-- The write returns and its decision is right. -/
def DecidesRight (fsl : FixedSizeLlseek) (s : Driver) (fPos : ℤ) (buf : UserBuf) (env : WriteEnv) :
    Prop :=
  ∃ reply s', exec fsl s (.write fPos buf env) = some (reply, s') ∧
    Decided s (accumulated s buf env) s'

/-- **When a write decides right**: if there is a newline in the accumulated bytes, or there is one
byte after them that can be read and is none. -/
lemma decidesRight_iff {q : List AesdBufferEntry} (hI : Inv s q []) (hlock : s.lock = false)
    (fPos : ℤ) {buf : UserBuf} {env : WriteEnv} (ha : Allocates s buf env) :
    DecidesRight fsl s fPos buf env ↔ newline ∈ accumulated s buf env ∨
      (buf.bytes.length + s.pending.length ≠ 0 ∧
        scannedBytes s buf env (accumulated s buf env).length ≠ newline) := by
  by_cases hempty : buf.bytes.length + s.pending.length = 0
  · have hacc : accumulated s buf env = [] := by
      have hlen := length_accumulated s buf env
      have hcopied := env.copied_le buf
      exact List.length_eq_zero_iff.mp (by omega)
    rw [hacc]
    refine iff_of_false ?_ (by simp [hempty])
    rintro ⟨reply, s', hexec, -⟩
    have hnone : exec fsl s (.write fPos buf env) = none :=
      (aesdWrite_eq_none hI hlock).mpr ⟨ha, hempty⟩
    exact absurd (hnone.symm.trans hexec) (by simp)
  · rw [and_iff_right hempty]
    obtain ⟨found, s', hfound, hrun, hstored⟩ := aesdWrite_of_allocates fPos hI hlock ha hempty
    have hright : Decided s (accumulated s buf env) s' ↔ newline ∈ accumulated s buf env ∨
        scannedBytes s buf env (accumulated s buf env).length ≠ newline := by
      rw [hstored.decided_iff, hfound]
      tauto
    rw [← hright]
    constructor
    · rintro ⟨reply, t, hexec, hdecided⟩
      obtain ⟨-, rfl⟩ := Prod.mk.inj (Option.some.inj (hexec.symm.trans hrun))
      exact hdecided
    · exact fun hdecided => ⟨_, s', hrun, hdecided⟩

/-- **When the commit decision is right.** Take a write in a reachable state. If it gets the lock and
its allocations, it returns, decides right and its newline scan stays within the accumulated
bytes if and only if there is a newline among them; it returns and decides right if and only if
there is one, or its block is not empty and the byte just after them is not one. Otherwise it changes
nothing. No pending byte is ever a newline. In a run in which the decision of every write is right,
every command held has a newline, and two such runs in which the writes accepted the same bytes end
with the same contents, whatever the memory holds. -/
theorem commit_decision (fsl : FixedSizeLlseek) :
    (∀ s fPos buf env, Reachable fsl s →
      let acc := accumulated s buf env
      (s.lock = false → Allocates s buf env →
        ((DecidesRight fsl s fPos buf env ∧
          ∀ i ∈ (newlineScan (scannedBytes s buf env) acc.length).2, i < acc.length) ↔
            newline ∈ acc) ∧
        (DecidesRight fsl s fPos buf env ↔ newline ∈ acc ∨
          (buf.bytes.length + s.pending.length ≠ 0 ∧
            scannedBytes s buf env acc.length ≠ newline))) ∧
      ∀ reply s', exec fsl s (.write fPos buf env) = some (reply, s') →
        ¬Allocates s buf env → s' = s) ∧
    (∀ s, Reachable fsl s → newline ∉ s.pending) ∧
    (∀ s₀ cs s, Initialised s₀ →
      Transition.Run (Transition.guarded (fun t l => StrayOk t l.1) (CallStep fsl)) s₀ cs s →
      ∀ c ∈ s.commands, newline ∈ c) ∧
    ∀ s₀ cs s s₀' cs' s', Initialised s₀ → Initialised s₀' →
      Transition.Run (Transition.guarded (fun t l => StrayOk t l.1) (CallStep fsl)) s₀ cs s →
      Transition.Run (Transition.guarded (fun t l => StrayOk t l.1) (CallStep fsl)) s₀' cs' s' →
      cs.filterMap accepted = cs'.filterMap accepted → s.contents = s'.contents := by
  refine ⟨?_, fun s hs => newline_not_mem_pending hs, ?_, ?_⟩
  · intro s fPos buf env hs acc
    obtain ⟨q, hI⟩ := hs.inv
    refine ⟨fun hlock ha => ⟨?_, decidesRight_iff hI hlock fPos ha⟩, fun reply s' h ha =>
      write_of_not_allocates hI ha h⟩
    rw [decidesRight_iff hI hlock fPos ha, newlineScan_examined]
    exact ⟨fun h => h.2, fun h => ⟨.inl h, h⟩⟩
  · intro s₀ cs s h0 hrun c hc
    have hcommands : s.commands = _ := congrArg Contents.commands (contents_of_run h0 hrun)
    rw [hcommands] at hc
    exact (newlineLog_sound (cs.filterMap accepted)).1 c (List.mem_of_mem_drop hc)
  · intro s₀ cs s s₀' cs' s' h0 h0' hrun hrun' haccepted
    rw [contents_of_run h0 hrun, contents_of_run h0' hrun', haccepted]

/-- A write of `"a"` to the initialised device, with a newline in the memory after it, is
committed. -/
theorem commit_decision_fails :
    ¬∀ (fsl : FixedSizeLlseek) (s : Driver) (fPos : ℤ) (buf : UserBuf) (env : WriteEnv)
      (reply : Reply) (s' : Driver), Reachable fsl s → Allocates s buf env →
      exec fsl s (.write fPos buf env) = some (reply, s') →
      Decided s (accumulated s buf env) s' := by
  intro h
  obtain ⟨env, ha, hmemory, hcopied⟩ := exists_allocates (inv_initialDriver 0)
    ⟨[97], by decide⟩ (fun _ => newline) 0 (by decide)
  have hacc : accumulated (initialDriver 0) ⟨[97], by decide⟩ env = [97] := by
    simp [accumulated, WriteEnv.copied, hcopied, Driver.pending, initialDriver]
  obtain ⟨found, s', -, hwrite, -⟩ :=
    aesdWrite_of_allocates 0 (inv_initialDriver 0) rfl ha (by decide)
  have hdecided := h fixedSizeLlseek _ _ _ _ _ _ (reachable_initialDriver _ 0) ha hwrite
  obtain ⟨found, hd⟩ := writeDone_of_allocates (inv_initialDriver 0) ha hwrite
  rcases (decided_iff hd).mp hdecided with hmem | hstray
  · rw [hacc] at hmem
    exact absurd hmem (by decide)
  · refine hstray ?_
    rw [scannedBytes_length, if_neg (by simp [WriteEnv.copied, hcopied]), hmemory]

/-! ## Writing lines -/

/-- Any bytes can be written that fit a block, unless there is nothing to write: they are committed
with the pending ones if there is a newline, and otherwise kept. -/
lemma exists_aesdWrite {q : List AesdBufferEntry} (hI : Inv s q []) (hlock : s.lock = false)
    (fPos : ℤ) (buf : UserBuf) (hsize : buf.bytes.length + s.pending.length ≤ kmallocMaxSize)
    (hne : buf.bytes.length + s.pending.length ≠ 0) :
    ∃ env s', aesdWrite s fPos buf env =
        some ({ ret := buf.bytes.length, fPos := signed64 (fPos + buf.bytes.length) }, s') ∧
      Stored s (s.pending ++ buf.bytes) (newline ∈ s.pending ++ buf.bytes) s' := by
  obtain ⟨env, ha, hmemory, huncopied⟩ := exists_allocates hI buf (fun _ => 0) 0 hsize
  obtain ⟨found, s', hfound, hwrite, hstored⟩ := aesdWrite_of_allocates fPos hI hlock ha hne
  have hcopied : env.copied buf = buf.bytes.length := by
    rw [WriteEnv.copied, huncopied, Nat.zero_min, Nat.sub_zero]
  have hacc : accumulated s buf env = s.pending ++ buf.bytes := by
    rw [accumulated, hcopied, List.take_length]
  have hstray : scannedBytes s buf env (accumulated s buf env).length ≠ newline := by
    have hzero : (0 : Byte) ≠ newline := by decide
    rw [scannedBytes_length, hmemory]
    split_ifs <;> exact hzero
  have hdecide : found = decide (newline ∈ s.pending ++ buf.bytes) := by
    rw [Bool.eq_iff_iff, hfound, hacc, decide_eq_true_iff]
    exact or_iff_left (hacc ▸ hstray)
  rw [hcopied] at hwrite
  rw [hacc, hdecide] at hstored
  exact ⟨env, s', hwrite, hstored⟩

/-- The call is a write. -/
def Call.IsWrite (c : Call) : Prop := ∃ fPos buf env, c = .write fPos buf env

/-- The runs of writes only. -/
def WriteRun (fsl : FixedSizeLlseek) : Driver → List (Call × Reply) → Driver → Prop :=
  Transition.Run (Transition.guarded (fun _ l => l.1.IsWrite) (CallStep fsl))

/-- A run of writes keeps the invariant and leaves the lock free. -/
lemma WriteRun.inv {s₀ : Driver} {cs : List (Call × Reply)} (h0 : Initialised s₀)
    (hrun : WriteRun fsl s₀ cs s) : (∃ q, Inv s q []) ∧ s.lock = false := by
  refine hrun.invariant (I := fun t => (∃ q, Inv t q []) ∧ t.lock = false) ?_ ?_
  · obtain ⟨g, rfl⟩ := initialised_iff.mp h0
    exact ⟨⟨[], inv_initialDriver g⟩, rfl⟩
  · rintro t ⟨c, reply⟩ u ⟨⟨q, hI⟩, hlock⟩ ⟨⟨fPos, buf, env, rfl⟩, hstep⟩
    refine ⟨exec_inv hI hstep, ?_⟩
    rcases aesdWriteWith_cases hI hstep with ⟨found, hd⟩ | hf
    · exact hd.stored.lock_eq.trans hlock
    · rw [hf.state_eq, hlock]

/-- A run of writes leads to reachable states. -/
lemma WriteRun.reachable {s₀ : Driver} {cs : List (Call × Reply)} (h0 : Initialised s₀)
    (hrun : WriteRun fsl s₀ cs s) : Reachable fsl s :=
  ⟨s₀, cs, h0, Transition.Run.of_guarded hrun⟩

/-- **Any lines can be written**: there is a run of writes that commits them, one each. -/
lemma exists_writeRun (fsl : FixedSizeLlseek) (lines : List (List Byte))
    (hlines : ∀ l ∈ lines, newline ∈ l ∧ l.length ≤ kmallocMaxSize) :
    ∃ cs s, WriteRun fsl (initialDriver 0) cs s ∧ s.contents = logContents ⟨lines, []⟩ := by
  induction lines using List.reverseRecOn with
  | nil => exact ⟨[], initialDriver 0, .nil, contents_initialDriver 0⟩
  | append_singleton lines l ih =>
    obtain ⟨cs, s, hrun, hcont⟩ := ih fun l' hl' => hlines l' (by simp [hl'])
    obtain ⟨hnl, hsize⟩ := hlines l (by simp)
    obtain ⟨⟨q, hI⟩, hlock⟩ := hrun.inv (initialised_iff.mpr ⟨0, rfl⟩)
    have hpend : s.pending = [] := congrArg Contents.pending hcont
    have hmax : l.length ≤ maxRwCount := hsize.trans (by decide)
    have hpos := List.length_pos_of_mem hnl
    obtain ⟨env, s', hwrite, hstored⟩ := exists_aesdWrite hI hlock 0 ⟨l, hmax⟩
      (by rw [hpend]; exact hsize) (by simp only; omega)
    rw [decide_eq_true (List.mem_append_right _ hnl)] at hstored
    have hstep : CallStep fsl s (.write 0 ⟨l, hmax⟩ env, _) s' := hwrite
    exact ⟨_, s', hrun.snoc ⟨⟨_, _, _, rfl⟩, hstep⟩, hstored.contents_eq hcont⟩

/-- Some reachable device, with its lock free, holds these lines. -/
lemma exists_device (fsl : FixedSizeLlseek) (lines : List (List Byte))
    (hlines : ∀ l ∈ lines, newline ∈ l ∧ l.length ≤ kmallocMaxSize) :
    ∃ s q, Reachable fsl s ∧ Inv s q [] ∧ s.lock = false ∧
      s.contents = logContents ⟨lines, []⟩ := by
  obtain ⟨cs, s, hrun, hcont⟩ := exists_writeRun fsl lines hlines
  have h0 : Initialised (initialDriver 0) := initialised_iff.mpr ⟨0, rfl⟩
  obtain ⟨⟨q, hI⟩, hlock⟩ := hrun.inv h0
  exact ⟨s, q, hrun.reachable h0, hI, hlock, hcont⟩

end Aesd
