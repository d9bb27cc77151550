import Aesd.Server.ReadCall

set_option relaxedAutoImplicit false
set_option autoImplicit false

/-!
# Interrupted reads

After an interrupted read the `continue` of `read_until_term` goes to the test of its `do` loop, not
to its start. The test then looks at the byte stored last, which is not the terminator, so that the
read is made again; but before the first byte it looks at the memory in front of the buffer.

## Main definitions

* `Aesd.withoutInterrupts` — the results of the reads without the interrupted ones.
* `Aesd.Invisible` — the interrupted reads make no difference to the caller.
* `Aesd.rutTests`, `Aesd.TestsStored` — the tests of the loop condition, and that each looks at a
  byte that has been stored.

## Main results

* `Aesd.rutLoop_uninterrupted` — an interrupted read that makes no difference.
* `Aesd.interrupts_invisible` — for which results of the reads interruptions are invisible.
-/

namespace Aesd

/-! ## What the caller sees -/

/-- The results of the reads without the interrupted ones. -/
def withoutInterrupts (rs : List ReadResult) : List ReadResult := rs.filter (· ≠ .eintr)

/-- What a call gives back, up to interrupted reads in the rest of the stream. -/
def RutReturn.uninterrupted (ret : RutReturn) : RutReturn :=
  { ret with rest := withoutInterrupts ret.rest }

/-- The call returns the same line, with the same `*bytes_read`, and the same flag, and leaves the
same rest of the stream, as it does without the interrupted reads. -/
def Invisible (term : Byte) (env : CallEnv) (flag : ℤ) (rs : List ReadResult) : Prop :=
  (readUntilTerm term env flag rs).map RutReturn.uninterrupted =
    readUntilTerm term env flag (withoutInterrupts rs)

/-- The variables when an iteration with this read comes to the loop condition; `none` if it leaves
the loop before. -/
def rutTested (r : ReadResult) (st : RutState) : Option RutState :=
  match r with
  | .eintr => some st
  | .byte c => some
      { st with stored := st.stored ++ [c], totRead := sizeT (st.totRead + 1), flag := 0 }
  | .eof => none
  | .error => none

/-- The variables at each test of the loop condition. -/
def rutTests (term : Byte) (iter : ℕ → IterEnv) : List ReadResult → RutState → List RutState
  | [], _ => []
  | r :: rs, st =>
    match (rutGrow (iter st.stored.length) st).bind (rutTested r) with
    | none => []
    | some st => st :: if st.lastByte = term then [] else rutTests term iter rs st

/-- Every test of the loop condition in a call looks at a byte stored in the buffer, not at the
memory in front of it. -/
def TestsStored (term : Byte) (env : CallEnv) (flag : ℤ) (rs : List ReadResult) : Prop :=
  match rutMalloc flag env.malloc with
  | .returned _ _ => True
  | .running st => ∀ tested ∈ rutTests term env.iter rs st, tested.stored ≠ []

variable {term : Byte} {env : IterEnv} {iter : ℕ → IterEnv} {st st' : RutState}
  {rs : List ReadResult} {r : ReadResult}

/-- Where an iteration comes to the loop condition it continues with the test. -/
lemma rutConsume_of_tested (h : rutTested r st = some st') :
    rutConsume term env r st = rutTest term env st' := by
  cases r with
  | byte c => rw [← Option.some.inj h]; rfl
  | eintr => rw [← Option.some.inj h]; rfl
  | eof => exact absurd h (by simp [rutTested])
  | error => exact absurd h (by simp [rutTested])

/-! ## Interruptions that make no difference -/

/-- A loop that cannot grow its buffer returns before its next read. -/
lemma rutLoop_of_grow_none (h : rutGrow (iter st.stored.length) st = none) :
    rutLoop term iter rs st = some ⟨none, 2, rs⟩ := by
  cases rs <;> simp only [rutLoop, h]

/-- Growing the buffer beforehand makes no difference to the loop. -/
lemma rutLoop_of_grow (hst : RutInv term st) (h : rutGrow (iter st.stored.length) st = some st') :
    rutLoop term iter rs st = rutLoop term iter rs st' := by
  obtain ⟨-, hstored, -, -, -, hagain⟩ := rutGrow_some hst h
  have h' : rutGrow (iter st'.stored.length) st' = some st' := by rwa [hstored]
  cases rs <;> simp only [rutLoop, h, h']

/-- Before a byte is stored the buffer need not grow. -/
lemma rutGrow_of_nil (hst : RutInv term st) (hnil : st.stored = []) : rutGrow env st = some st := by
  have htwo := hst.two_le
  apply if_neg
  rw [hnil, List.length_nil]
  omega

/-- **An interrupted read makes no difference**, unless no byte has been stored, the one in front of
the buffer is the terminator and the next read is interrupted: the loop goes on with the next read.

**Proof sketch.** Induction on the results. An interrupted read leaves the variables as they are but
for a buffer that may have grown, and the test fails. Any other read does the same to both runs. -/
lemma rutLoop_uninterrupted (hst : RutInv term st)
    (h : rs.head? ≠ some .eintr ∨ st.stored ≠ [] ∨ st.before ≠ term) :
    (rutLoop term iter rs st).map RutReturn.uninterrupted =
      rutLoop term iter (withoutInterrupts rs) st := by
  induction rs generalizing st with
  | nil =>
    rw [withoutInterrupts, List.filter_nil, rutLoop]
    cases rutGrow (iter st.stored.length) st <;> rfl
  | cons r rs ih =>
    cases hgrow : rutGrow (iter st.stored.length) st with
    | none => rw [rutLoop_of_grow_none hgrow, rutLoop_of_grow_none hgrow]; rfl
    | some st' =>
      obtain ⟨hst', hstored, -, hroom, hsame, -⟩ := rutGrow_some hst hgrow
      cases r with
      | eintr =>
        have h' : st'.stored ≠ [] ∨ st'.before ≠ term := by
          rcases eq_or_ne st.stored [] with hnil | hne
          · rw [hsame hnil]
            exact h.resolve_left fun hhead => hhead rfl
          · exact .inl (hstored ▸ hne)
        have htest : rutConsume term (iter st'.stored.length) .eintr st' = .running st' :=
          if_neg (hst'.lastByte_ne h')
        have hskip : withoutInterrupts (.eintr :: rs) = withoutInterrupts rs := rfl
        have hloop : rutLoop term iter (.eintr :: rs) st = rutLoop term iter rs st' := by
          simp only [rutLoop, hgrow, htest]
        rw [hskip, hloop, ih hst' (.inr h'), ← rutLoop_of_grow hst hgrow]
      | byte c =>
        have hkeep : withoutInterrupts (.byte c :: rs) = .byte c :: withoutInterrupts rs := rfl
        rw [hkeep]
        simp only [rutLoop, hgrow]
        rcases rutConsume_byte_cases (iter st'.stored.length) hst' hroom c with
          ⟨-, line, hret, -, -⟩ | ⟨-, st'', hrun, hstored'', hst''⟩
        · simp only [hret]
          rfl
        · simp only [hrun]
          exact ih hst'' (.inr (.inl (by simp [hstored''])))
      | eof =>
        have hkeep : withoutInterrupts (.eof :: rs) = .eof :: withoutInterrupts rs := rfl
        rw [hkeep]
        simp only [rutLoop, hgrow]
        rcases rutConsume_eof_cases (iter st'.stored.length) hst' with
          ⟨-, heof⟩ | ⟨-, line, heof, -, -⟩ <;> simp only [heof] <;> rfl
      | error =>
        have hkeep : withoutInterrupts (.error :: rs) = .error :: withoutInterrupts rs := rfl
        rw [hkeep]
        simp only [rutLoop, hgrow]
        rfl

/-- A test that fails leads to another iteration, for which the variables are in order. -/
lemma RutInv.of_tested (hst : RutInv term st) (hroom : (st.stored.length : ℤ) < st.bufsize - 1)
    (h : rutTested r st = some st') (hlast : st'.lastByte ≠ term) : RutInv term st' := by
  cases r with
  | eintr =>
    rw [← Option.some.inj h]
    exact hst
  | byte c =>
    have hconsume : rutConsume term ⟨none, false⟩ (.byte c) st = .running st' := by
      rw [rutConsume_of_tested h, rutTest, if_neg hlast]
    rcases rutConsume_byte_cases ⟨none, false⟩ hst hroom c with
      ⟨-, line, hret, -⟩ | ⟨-, st'', hrun, -, hst''⟩
    · exact absurd (hret.symm.trans hconsume) (by simp)
    · rw [← RutOutcome.running.inj (hrun.symm.trans hconsume)]
      exact hst''
  | eof => exact absurd h (by simp [rutTested])
  | error => exact absurd h (by simp [rutTested])

/-- A test looks at a stored byte, if a byte was stored before or the iteration stored one. -/
lemma rutTested_stored (h : rutTested r st = some st') (hne : st.stored ≠ [] ∨ r ≠ .eintr) :
    st'.stored ≠ [] := by
  cases r with
  | eintr =>
    rw [← Option.some.inj h]
    exact hne.resolve_right fun h => h rfl
  | byte c =>
    rw [← Option.some.inj h]
    simp
  | eof => exact absurd h (by simp [rutTested])
  | error => exact absurd h (by simp [rutTested])

/-- Once a byte is stored, or the next read is not interrupted, every test looks at a stored
byte. -/
lemma rutTests_stored (hst : RutInv term st) (hne : st.stored ≠ [] ∨ rs.head? ≠ some .eintr) :
    ∀ tested ∈ rutTests term iter rs st, tested.stored ≠ [] := by
  induction rs generalizing st with
  | nil => simp [rutTests]
  | cons r rs ih =>
    unfold rutTests
    split
    · simp
    · next tested htested =>
      obtain ⟨st', hgrow, htested⟩ := Option.bind_eq_some_iff.mp htested
      obtain ⟨hst', hstored, -, hroom, -, -⟩ := rutGrow_some hst hgrow
      have hne' : st'.stored ≠ [] ∨ r ≠ .eintr :=
        hne.imp (fun h => hstored ▸ h) fun h hr => h (by rw [hr]; rfl)
      have hafter := rutTested_stored htested hne'
      refine List.forall_mem_cons.mpr ⟨hafter, ?_⟩
      split_ifs with hlast
      · simp
      · exact ih (hst'.of_tested hroom htested hlast) (.inl hafter)

/-- Without an interrupted read a loop returns no empty line. -/
lemma rutLoop_line_ne_nil (hst : RutInv term st) (hrs : .eintr ∉ rs) {ret : RutReturn} {line : Line}
    (h : rutLoop term iter rs st = some ret) (hline : ret.line = some line) : line.bytes ≠ [] := by
  induction rs generalizing st with
  | nil =>
    rw [rutLoop] at h
    cases hgrow : rutGrow (iter st.stored.length) st <;> rw [hgrow] at h
    · rw [← Option.some.inj h] at hline
      exact absurd hline (by simp)
    · exact absurd h (by simp)
  | cons r rs ih =>
    obtain ⟨hr, hrest⟩ := List.ne_and_not_mem_of_not_mem_cons hrs
    cases hgrow : rutGrow (iter st.stored.length) st with
    | none =>
      rw [rutLoop_of_grow_none hgrow] at h
      rw [← Option.some.inj h] at hline
      exact absurd hline (by simp)
    | some st' =>
      obtain ⟨hst', -, -, hroom, -, -⟩ := rutGrow_some hst hgrow
      simp only [rutLoop, hgrow] at h
      cases r with
      | eintr => exact absurd rfl hr
      | byte c =>
        rcases rutConsume_byte_cases (iter st'.stored.length) hst' hroom c with
          ⟨-, line', hret, hbytes, -⟩ | ⟨-, st'', hrun, -, hst''⟩
        · simp only [hret] at h
          rw [← Option.some.inj h] at hline
          rw [← Option.some.inj hline, hbytes]
          simp
        · simp only [hrun] at h
          exact ih hst'' hrest h
      | eof =>
        rcases rutConsume_eof_cases (iter st'.stored.length) hst' with
          ⟨-, heof⟩ | ⟨hne, line', heof, hbytes, -⟩ <;> simp only [heof] at h <;>
          rw [← Option.some.inj h] at hline
        · exact absurd hline (by simp)
        · rw [← Option.some.inj hline, hbytes]
          exact hne
      | error =>
        rw [← Option.some.inj h] at hline
        exact absurd hline (by simp)

/-! ## The whole call -/

/-- The caller sees no interrupted read exactly if the first read is not interrupted, or the byte in
front of the buffer is not the terminator, or there is no buffer. -/
lemma invisible_iff (term : Byte) (env : CallEnv) (flag : ℤ) (rs : List ReadResult) :
    Invisible term env flag rs ↔ rs.head? ≠ some .eintr ∨ env.malloc ≠ some term := by
  unfold Invisible readUntilTerm
  rcases rutMalloc_cases term flag env.malloc with
    ⟨hnone, h⟩ | ⟨before, st, hsome, h, hnil, rfl, -, hst⟩ <;> simp only [h]
  · exact iff_of_true rfl (.inr (by rw [hnone]; simp))
  · constructor
    · intro hinvisible
      by_contra hnot
      rw [not_or, not_not, not_not, hsome, Option.some.injEq] at hnot
      obtain ⟨hhead, hbefore⟩ := hnot
      obtain ⟨rs, rfl⟩ := List.head?_eq_some_iff.mp hhead
      -- the test looks at the terminator in front of the buffer, and the empty line is returned
      have hlast : st.lastByte = term := by
        rw [RutState.lastByte, hnil]
        exact hbefore
      have hloop : ∃ cap, rutLoop term env.iter (.eintr :: rs) st =
          some ⟨some ⟨[], cap⟩, st.flag, rs⟩ := by
        have htest : ∀ e, rutConsume term e .eintr st = rutFinish e st := fun e => if_pos hlast
        simp only [rutLoop, rutGrow_of_nil hst hnil, htest, rutFinish, hnil]
        exact ⟨_, rfl⟩
      obtain ⟨cap, hloop⟩ := hloop
      rw [hloop, Option.map_some] at hinvisible
      have hnone : ReadResult.eintr ∉ withoutInterrupts (.eintr :: rs) := by
        simp [withoutInterrupts]
      exact rutLoop_line_ne_nil hst hnone hinvisible.symm rfl rfl
    · intro hseen
      apply rutLoop_uninterrupted hst
      refine hseen.imp_right fun hne => .inr ?_
      rwa [hsome, Ne, Option.some.injEq] at hne

/-- Every test looks at a stored byte exactly if the first read is not interrupted or there is no
buffer. -/
lemma testsStored_iff (term : Byte) (env : CallEnv) (flag : ℤ) (rs : List ReadResult) :
    TestsStored term env flag rs ↔ rs.head? ≠ some .eintr ∨ env.malloc = none := by
  unfold TestsStored
  rcases rutMalloc_cases term flag env.malloc with
    ⟨hnone, h⟩ | ⟨before, st, hsome, h, hnil, rfl, -, hst⟩ <;> simp only [h]
  · exact iff_of_true trivial (.inr hnone)
  · rw [hsome, or_iff_left (by simp)]
    constructor
    · intro hall hhead
      obtain ⟨rs, rfl⟩ := List.head?_eq_some_iff.mp hhead
      refine hall st ?_ hnil
      rw [rutTests, rutGrow_of_nil hst hnil]
      exact List.mem_cons_self
    · intro hhead
      exact rutTests_stored hst (.inr hhead)

/-- **Interrupted reads are invisible unless they come first.** For every terminator, all outcomes
of the allocations, every memory in front of the buffer and all results of the reads: the caller
sees nothing of the interrupted reads, and every test of the loop condition looks at a stored byte,
exactly if the first read is not interrupted or no buffer could be allocated. What the caller sees
alone is also right whenever the byte in front of the buffer is not the terminator.

**Proof sketch.** Once a byte is stored the byte stored last is not the terminator, so that the test
after an interrupted read fails. If the first read is interrupted, the test looks at the memory in
front of the buffer; if it finds the terminator there the call returns an empty line, which it never
does without an interrupted read. -/
theorem interrupts_invisible (term : Byte) (env : CallEnv) (flag : ℤ) (rs : List ReadResult) :
    (Invisible term env flag rs ∧ TestsStored term env flag rs ↔
        rs.head? ≠ some .eintr ∨ env.malloc = none) ∧
      (Invisible term env flag rs ↔ rs.head? ≠ some .eintr ∨ env.malloc ≠ some term) := by
  refine ⟨?_, invisible_iff term env flag rs⟩
  rw [invisible_iff, testsStored_iff, ← or_and_left]
  apply or_congr_right
  rw [and_iff_right_iff_imp]
  intro hnone
  rw [hnone]
  simp

/-- A call with the terminator in front of its buffer, whose first read is interrupted, returns an
empty line instead of `"a\n"`. -/
theorem interrupts_invisible_fails :
    ¬∀ (term : Byte) (env : CallEnv) (flag : ℤ) (rs : List ReadResult),
      Invisible term env flag rs ∧ TestsStored term env flag rs := by
  intro h
  have hvisible := (h newline ⟨some newline, fun _ => ⟨some 0, true⟩⟩ (-1)
    [.eintr, .byte 97, .byte 10]).1
  have hflag := congrArg (Option.map (·.flag)) hvisible
  exact absurd hflag (by decide)

end Aesd
