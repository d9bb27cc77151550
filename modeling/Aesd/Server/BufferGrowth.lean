import Aesd.Lib.Run
import Aesd.Server.StreamSplit
import Mathlib.Algebra.Order.Ring.Int

set_option relaxedAutoImplicit false
set_option autoImplicit false

/-!
# The growth of the buffer

The buffer of `read_until_term` doubles when only the place of the NUL is left. Its size is an `int`
and always a power of two, so that the last doubling that fits makes it `2^30`; the one after it
overflows. A piece reaches it with `2^30 - 1` bytes stored.

## Main definitions

* `Aesd.RutStep`, `Aesd.IteratesAt` — the iterations of a call as steps, and those it comes to.
* `Aesd.IterationSafe`, `Aesd.GrowthSafe` — the bounds in one iteration, and in all of a call.

## Main results

* `Aesd.IteratesAt.readUntilTerm_eq` — the call is the loop from any iteration it comes to.
* `Aesd.RutInv.step` — what an iteration that goes on does.
* `Aesd.exists_run_to_largest` — the iterations that fill the largest buffer.
* `Aesd.buffer_growth` — when the growth of the buffer is in bounds.
-/

namespace Aesd

open Transition

/-! ## Iterations -/

/-- An iteration in which the buffer has room or grows, and whose read leads to another
iteration. -/
def RutStep (term : Byte) (iter : ℕ → IterEnv) (st : RutState) (r : ReadResult)
    (st' : RutState) : Prop :=
  ∃ st₁, rutGrow (iter st.stored.length) st = some st₁ ∧
    rutConsume term (iter st₁.stored.length) r st₁ = .running st'

/-- A call with these results of its reads comes to an iteration with these variables, in which the
read gives `r`. -/
def IteratesAt (term : Byte) (env : CallEnv) (flag : ℤ) (rs : List ReadResult) (st : RutState)
    (r : ReadResult) : Prop :=
  ∃ st₀ ls, rutMalloc flag env.malloc = .running st₀ ∧ Run (RutStep term env.iter) st₀ ls st ∧
    ls ++ [r] <+: rs

/-- The bounds in one iteration: the variable `offset` is an index of the buffer; `bufsize` does not
overflow where it is doubled; a byte is stored inside the block, and `offset` is still an `int`
after it; and a line that is returned ends with its NUL inside the block, shrunk or not, with
`offset + 1` and `*bytes_read` an `int`. -/
structure IterationSafe (term : Byte) (env : IterEnv) (st : RutState) (r : ReadResult) : Prop where
  offset_lt : (st.stored.length : ℤ) < st.bufsize
  double_lt : (st.stored.length : ℤ) = st.bufsize - 1 → 2 * st.bufsize < 2 ^ 31
  store_le : ∀ c st₁, r = .byte c → rutGrow env st = some st₁ →
    st₁.stored.length + 1 ≤ st₁.cap ∧ st₁.stored.length + 1 < 2 ^ 31
  return_le : ∀ st₁ line flag, rutGrow env st = some st₁ →
    rutConsume term env r st₁ = .returned (some line) flag →
    line.block.length ≤ line.cap ∧ line.bytes.length + 1 < 2 ^ 31 ∧
      line.bytesRead = line.bytes.length

/-- Every iteration of the call is in these bounds. -/
def GrowthSafe (term : Byte) (env : CallEnv) (flag : ℤ) (rs : List ReadResult) : Prop :=
  ∀ st r, IteratesAt term env flag rs st r → IterationSafe term (env.iter st.stored.length) st r

variable {term : Byte} {env : CallEnv} {iter : ℕ → IterEnv} {st st' : RutState} {flag : ℤ}
  {ls rs : List ReadResult} {r : ReadResult} {bytes : List Byte} {ending : ReadResult}

/-- **The loop continues as its iterations say.** -/
lemma rutLoop_of_run (hrun : Run (RutStep term iter) st ls st') (rs : List ReadResult) :
    rutLoop term iter (ls ++ rs) st = rutLoop term iter rs st' := by
  induction hrun generalizing rs with
  | nil => rfl
  | @snoc ls l t u _ hstep ih =>
    obtain ⟨st₁, hgrow, hconsume⟩ := hstep
    rw [List.append_assoc, ih, List.singleton_append, rutLoop, hgrow]
    simp only [hconsume]

/-! ## One iteration -/

/-- A buffer that grows is doubled. -/
lemma rutGrow_bufsize {env : IterEnv} (hst : RutInv term st) (h : rutGrow env st = some st') :
    st'.bufsize = st.bufsize ∨ st'.bufsize = 2 * st.bufsize := by
  obtain ⟨hst', -, -, -, -, -⟩ := rutGrow_some hst h
  have htwo := hst.two_le
  have hlt := hst.bufsize_lt
  have htwo' := hst'.two_le
  unfold rutGrow at h
  split_ifs at h with hfull
  · obtain ⟨before, -, rfl⟩ := Option.map_eq_some_iff.mp h
    -- the doubled size is positive, so it has not wrapped around
    right
    simp only [signed32, Int.bmod_def] at htwo' ⊢
    omega
  · rw [← Option.some.inj h]
    exact .inl rfl

/-- **An iteration that goes on**, if its read is not interrupted, stores a byte other than the
terminator, in a buffer that is as large as before or twice as large. -/
lemma RutInv.step (hst : RutInv term st) (hr : r ≠ .eintr) (h : RutStep term iter st r st') :
    ∃ c, r = .byte c ∧ st'.stored = st.stored ++ [c] ∧ RutInv term st' ∧
      (st'.bufsize = st.bufsize ∨ st'.bufsize = 2 * st.bufsize) := by
  obtain ⟨st₁, hgrow, hconsume⟩ := h
  obtain ⟨hst₁, hstored, -, hroom, -, -⟩ := rutGrow_some hst hgrow
  have hbufsize := rutGrow_bufsize hst hgrow
  cases r with
  | eintr => exact absurd rfl hr
  | error => exact absurd hconsume (by simp [rutConsume])
  | eof =>
    rcases rutConsume_eof_cases (iter st₁.stored.length) hst₁ with
      ⟨-, heof⟩ | ⟨-, line, heof, -, -⟩ <;>
      exact absurd (heof.symm.trans hconsume) (by simp)
  | byte c =>
    rcases rutConsume_byte_cases (iter st₁.stored.length) hst₁ hroom c with
      ⟨-, line, hret, -, -⟩ | ⟨-, st₂, hgo, hstored₂, hst₂⟩
    · exact absurd (hret.symm.trans hconsume) (by simp)
    · obtain rfl : st₂ = st' := by
        rw [hconsume] at hgo
        injection hgo with hgo
        exact hgo.symm
      refine ⟨c, rfl, by rw [hstored₂, hstored], hst₂, ?_⟩
      have hsame : st₂.bufsize = st₁.bufsize := by
        simp only [rutConsume, rutTest] at hconsume
        split_ifs at hconsume
        · exact absurd hconsume (by simp [rutFinish])
        · injection hconsume with hconsume
          rw [← hconsume]
      rwa [hsame]

/-- **An iteration is in its bounds** unless `2^30 - 1` bytes or more are stored. -/
lemma RutInv.iterationSafe {env : IterEnv} (hst : RutInv term st) (hr : r ≠ .eintr)
    (hlen : st.stored.length < 2 ^ 30 - 1) : IterationSafe term env st r where
  offset_lt := hst.room
  double_lt hfull := by omega
  store_le c st₁ _ hgrow := by
    obtain ⟨hst₁, -, -, hroom, -, -⟩ := rutGrow_some hst hgrow
    have hcap := hst₁.cap_eq
    have hlt := hst₁.bufsize_lt
    omega
  return_le st₁ line flag hgrow hreturn := by
    obtain ⟨hst₁, -, -, hroom, -, -⟩ := rutGrow_some hst hgrow
    have hlt := hst₁.bufsize_lt
    -- a line is what is stored, or that and the terminator
    have hline : LineOk line ∧ line.bytes.length ≤ st₁.stored.length + 1 := by
      cases r with
      | eintr => exact absurd rfl hr
      | error => exact absurd hreturn (by simp [rutConsume])
      | eof =>
        rcases rutConsume_eof_cases env hst₁ with ⟨-, heof⟩ | ⟨-, line', heof, hbytes, hok⟩
        · exact absurd (heof.symm.trans hreturn) (by simp)
        · rw [heof] at hreturn
          injection hreturn with hsame
          rw [← Option.some.inj hsame, hbytes]
          exact ⟨hok, Nat.le_succ _⟩
      | byte c =>
        rcases rutConsume_byte_cases env hst₁ hroom c with
          ⟨-, line', hret, hbytes, hok⟩ | ⟨-, st₂, hgo, -, -⟩
        · rw [hret] at hreturn
          injection hreturn with hsame
          rw [← Option.some.inj hsame, hbytes, List.length_append, List.length_singleton]
          exact ⟨hok, Nat.le_refl _⟩
        · exact absurd (hgo.symm.trans hreturn) (by simp)
    obtain ⟨hok, hle⟩ := hline
    exact ⟨hok.block_le, by omega, hok.bytesRead_eq⟩

/-! ## Whole calls -/

/-- The call is the loop from any iteration it comes to. -/
lemma IteratesAt.readUntilTerm_eq (h : IteratesAt term env flag rs st r) :
    ∃ rest, readUntilTerm term env flag rs = rutLoop term env.iter (r :: rest) st := by
  obtain ⟨st₀, ls, hmalloc, hrun, rest, hrs⟩ := h
  refine ⟨rest, ?_⟩
  rw [readUntilTerm, hmalloc, ← hrs, List.append_assoc, List.singleton_append]
  exact rutLoop_of_run hrun (r :: rest)

/-- What has been stored at an iteration is the start of the bytes, without the terminator. -/
lemma IteratesAt.stored_prefix (hending : ending = .eof ∨ ending = .error)
    (h : IteratesAt term env flag (results bytes ending) st r) :
    RutInv term st ∧ r ≠ .eintr ∧ st.stored <+: bytes := by
  obtain ⟨st₀, ls, hmalloc, hrun, hreads⟩ := h
  have hno : ∀ l ∈ results bytes ending, l ≠ .eintr := by
    intro l hl
    rw [results, List.mem_append, List.mem_map, List.mem_singleton] at hl
    rcases hl with ⟨c, -, rfl⟩ | rfl
    · simp
    · rcases hending with rfl | rfl <;> simp
  have hstart : RutInv term st₀ ∧ st₀.stored = [] := by
    rcases rutMalloc_cases term flag env.malloc with
      ⟨-, hnull⟩ | ⟨before, st, -, hstart, hstored, -, -, hst⟩
    · exact absurd (hnull.symm.trans hmalloc) (by simp)
    · rw [hstart] at hmalloc
      injection hmalloc with hsame
      exact hsame ▸ ⟨hst, hstored⟩
  have hinv : (∀ l ∈ ls, l ≠ .eintr) → RutInv term st ∧ ls = st.stored.map .byte := by
    refine hrun.invariant_labels
      (I := fun ls st => (∀ l ∈ ls, l ≠ .eintr) → RutInv term st ∧ ls = st.stored.map .byte)
      (fun _ => ⟨hstart.1, by rw [hstart.2]; rfl⟩) ?_
    intro ls st l st' _ ih hstep hnot
    obtain ⟨hst, hls⟩ := ih fun l hl => hnot l (List.mem_append_left _ hl)
    obtain ⟨c, rfl, hstored, hst', -⟩ := hst.step (hnot l (by simp)) hstep
    exact ⟨hst', by rw [hls, hstored, List.map_append]; rfl⟩
  obtain ⟨hst, hls⟩ := hinv fun l hl => hno l (hreads.subset (List.mem_append_left _ hl))
  refine ⟨hst, hno r (hreads.subset (by simp)), ?_⟩
  have hbytes : bytesLeft ls <+: bytesLeft (results bytes ending) :=
    ((List.prefix_append ls [r]).trans hreads).filterMap _
  have hstored : bytesLeft (st.stored.map .byte) = st.stored := by simp [bytesLeft]
  rwa [bytesLeft_results hending, hls, hstored] at hbytes

/-- **The iterations that fill the largest buffer.** From a buffer whose size is a power of two, and
whose growth never fails, bytes other than the terminator are stored one after the other as long as
they are no more than `2^30 - 1`; the size is still a power of two.

**Proof sketch.** Induction on the bytes: before each of them the buffer has room or grows. -/
lemma exists_run_to_largest (hgrow : ∀ n, (iter n).grow.isSome) (body : List Byte)
    (hbody : term ∉ body) (hst : RutInv term st) (hpow : ∃ k, st.bufsize = 2 ^ k)
    (hlen : st.stored.length + body.length ≤ 2 ^ 30 - 1) :
    ∃ st', Run (RutStep term iter) st (body.map .byte) st' ∧ st'.stored = st.stored ++ body ∧
      RutInv term st' ∧ ∃ k, st'.bufsize = 2 ^ k := by
  induction body generalizing st with
  | nil => exact ⟨st, .nil, (List.append_nil _).symm, hst, hpow⟩
  | cons c body ih =>
    obtain ⟨hc, hrest⟩ := List.ne_and_not_mem_of_not_mem_cons hbody
    rw [List.length_cons] at hlen
    obtain ⟨st₁, hst₁, -⟩ := rutGrow_ok hst.toRutOk (by omega) (hgrow st.stored.length)
    obtain ⟨hinv₁, hstored₁, -, hroom, -, -⟩ := rutGrow_some hst hst₁
    rcases rutConsume_byte_cases (iter st₁.stored.length) hinv₁ hroom c with
      ⟨hterm, -⟩ | ⟨-, st₂, hgo, -, -⟩
    · exact absurd hterm.symm hc
    · have hstep : RutStep term iter st (.byte c) st₂ := ⟨st₁, hst₁, hgo⟩
      obtain ⟨c', hcc', hstored, hinv, hbufsize⟩ := hst.step (by simp) hstep
      injection hcc' with hcc'
      subst hcc'
      obtain ⟨k, hk⟩ := hpow
      have hpow₂ : ∃ k, st₂.bufsize = 2 ^ k := by
        rcases hbufsize with hsame | hdouble
        · exact ⟨k, hsame.trans hk⟩
        · exact ⟨k + 1, by rw [hdouble, hk, pow_succ, mul_comm]⟩
      obtain ⟨st', hrun, hstored', hinv', hpow'⟩ := ih hrest hinv hpow₂ (by
        rw [hstored, List.length_append, List.length_singleton]
        omega)
      refine ⟨st', (Run.single hstep).append hrun, ?_, hinv', hpow'⟩
      rw [hstored', hstored, List.append_assoc]
      rfl

/-- A buffer whose size is a power of two and that holds `2^30 - 1` bytes is full, and its size
cannot be doubled. -/
lemma RutInv.full_of_largest (hst : RutInv term st) (hpow : ∃ k, st.bufsize = 2 ^ k)
    (hlen : st.stored.length = 2 ^ 30 - 1) : st.bufsize = 2 ^ 30 := by
  obtain ⟨k, hk⟩ := hpow
  have hroom := hst.room
  have hlt := hst.bufsize_lt
  rw [hk] at hroom hlt ⊢
  have hlow : (2 : ℤ) ^ 29 < 2 ^ k := by omega
  have hone : (1 : ℤ) < 2 := by decide
  have hlow' := (pow_lt_pow_iff_right₀ hone).mp hlow
  have hhigh := (pow_lt_pow_iff_right₀ hone).mp hlt
  rw [show k = 30 by omega]

/-- **A piece that fills the largest buffer is not safe**: with `2^30 - 1` bytes stored, the next
iteration doubles a `bufsize` of `2^30`. -/
lemma not_growthSafe (henv : env.Succeeds) (flag : ℤ) (ending : ReadResult) {body : List Byte}
    (hbody : term ∉ body) (hlen : body.length = 2 ^ 30 - 1) (tail : List Byte) :
    ¬GrowthSafe term env flag (results (body ++ tail) ending) := by
  intro hsafe
  obtain ⟨hmalloc, hgrow⟩ := henv
  obtain ⟨before, hbefore⟩ := Option.isSome_iff_exists.mp hmalloc
  obtain ⟨st₀, hstart, hstored, hinv, hpow⟩ : ∃ st₀, rutMalloc flag env.malloc = .running st₀ ∧
      st₀.stored = [] ∧ RutInv term st₀ ∧ ∃ k, st₀.bufsize = 2 ^ k := by
    rcases rutMalloc_cases term flag env.malloc with
      ⟨hnone, -⟩ | ⟨before', st₀, -, hstart, hstored, -, -, hinv⟩
    · exact absurd (hbefore.symm.trans hnone) (by simp)
    · refine ⟨st₀, hstart, hstored, hinv, 7, ?_⟩
      rw [hbefore] at hstart
      injection hstart with hsame
      rw [← hsame]
      rfl
  obtain ⟨st, hrun, hbytes, hst, hpow'⟩ := exists_run_to_largest hgrow body hbody hinv hpow
    (by rw [hstored, hlen]; rfl)
  have hfull : st.stored.length = 2 ^ 30 - 1 := by
    rw [hbytes, hstored, List.nil_append, hlen]
  have hsize := hst.full_of_largest hpow' hfull
  -- there is a read left
  obtain ⟨r, rest, hrest⟩ : ∃ r rest, results tail ending = r :: rest := by
    cases tail with
    | nil => exact ⟨ending, [], rfl⟩
    | cons c tail => exact ⟨.byte c, results tail ending, rfl⟩
  have hresults : results (body ++ tail) ending = body.map .byte ++ [r] ++ rest := by
    rw [List.append_assoc, List.singleton_append, ← hrest, results, results, List.map_append,
      List.append_assoc]
  have hdouble := (hsafe st r ⟨st₀, _, hstart, hrun, rest, hresults.symm⟩).double_lt (by omega)
  omega

/-- **When the growth of the buffer is in bounds.** For every terminator, every stream and the way
it ends, if no read is interrupted and every allocation of a representable size succeeds, whether or
not the buffer can be shrunk: all iterations of the call are in their bounds, if and only if the
stream has fewer than `2^30 - 1` bytes before the terminator, or before its end if there is none. -/
theorem buffer_growth (hending : ending = .eof ∨ ending = .error) (henv : env.Succeeds)
    (term : Byte) (flag : ℤ) (bytes : List Byte) :
    GrowthSafe term env flag (results bytes ending) ↔
      (bytes.takeWhile (· ≠ term)).length < 2 ^ 30 - 1 := by
  constructor
  · intro hsafe
    by_contra hlong
    set front := bytes.takeWhile (· ≠ term) with hfront
    have hnot : term ∉ front := fun hmem => by
      simpa using List.mem_takeWhile_imp hmem
    have hsplit : bytes = front.take (2 ^ 30 - 1) ++
        (front.drop (2 ^ 30 - 1) ++ bytes.dropWhile (· ≠ term)) := by
      rw [← List.append_assoc, List.take_append_drop, hfront, List.takeWhile_append_dropWhile]
    rw [hsplit] at hsafe
    refine not_growthSafe henv flag ending (fun hmem => hnot (List.mem_of_mem_take hmem)) ?_ _ hsafe
    rw [List.length_take]
    omega
  · intro hshort st r hit
    obtain ⟨hst, hr, hprefix⟩ := hit.stored_prefix hending
    have hle := Pieces.length_le_takeWhile hprefix hst.not_mem
    exact hst.iterationSafe hr (by omega)

/-- The growth is in bounds for the stream `"a\nb"`, with successful allocations. -/
theorem buffer_growth_two_lines :
    GrowthSafe newline ⟨some 0, fun _ => ⟨some 0, true⟩⟩ 0 (results [97, 10, 98] .eof) :=
  (buffer_growth (.inl rfl) ⟨rfl, fun _ => rfl⟩ newline 0 [97, 10, 98]).mpr (by decide)

/-- A line of `2^30 - 1` characters without a newline makes `bufsize` overflow. -/
theorem buffer_growth_fails :
    ¬∀ (term : Byte) (env : CallEnv) (flag : ℤ) (bytes : List Byte), env.Succeeds →
      GrowthSafe term env flag (results bytes .eof) := by
  intro h
  have henv : CallEnv.Succeeds ⟨some 0, fun _ => ⟨some 0, true⟩⟩ := ⟨rfl, fun _ => rfl⟩
  have hline : newline ∉ List.replicate (2 ^ 30 - 1) (97 : Byte) :=
    fun hmem => absurd (List.eq_of_mem_replicate hmem) (by decide)
  exact not_growthSafe henv 0 .eof hline List.length_replicate [] (h newline _ 0 _ henv)

end Aesd
