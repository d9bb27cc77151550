import Aesd.Server.ReadUntilTerm

set_option relaxedAutoImplicit false
set_option autoImplicit false

/-!
# A whole call of `read_until_term`

The iterations of `read_until_term` put together: from the allocation of the buffer, over the
results of the reads in order, to the return. The outcome of an allocation comes from the number of
bytes stored when it is made, which tells the allocations of one call apart. A call that needs more
results than there are has not returned yet.

## Main definitions

* `Aesd.CallEnv`, `Aesd.RutReturn` — the outcomes of the allocations of a call; what it gives back.
* `Aesd.readUntilTerm` — the call.
* `Aesd.results`, `Aesd.bytesLeft` — what the reads of a descriptor return, from its bytes and back.
* `Aesd.RutInv` — what holds before each iteration.
* `Aesd.PieceReturn` — the ways to return.

## Main results

* `Aesd.rutGrow_some` — a buffer that has grown.
* `Aesd.readUntilTerm_results` — a call that no read interrupts returns in one of these ways.
-/

namespace Aesd

/-! ## The call -/

/-- The outcomes of the allocations of one call: of the first `malloc`, and of those in an iteration
that starts with this many bytes stored. -/
structure CallEnv where
  malloc : Option Byte
  iter : ℕ → IterEnv

/-- What a call gives back: the line it returns, `*rtn_flag`, and the results of the reads it has
not made. -/
structure RutReturn where
  line : Option Line
  flag : ℤ
  rest : List ReadResult

/-- What the call stores in `*bytes_read`, an `int`, when it returns the line. -/
def Line.bytesRead (line : Line) : ℤ := signed32 line.bytes.length

/-- What the block of a returned line holds: after the bytes read, `buf[offset] = '\0'`. -/
def Line.block (line : Line) : List Byte := line.bytes ++ [0]

/-- The loop of `read_until_term` over the results of its reads; `none` while it waits for the next
one. -/
def rutLoop (term : Byte) (iter : ℕ → IterEnv) : List ReadResult → RutState → Option RutReturn
  | [], st =>
    match rutGrow (iter st.stored.length) st with
    | none => some ⟨none, 2, []⟩
    | some _ => none
  | r :: rs, st =>
    match rutGrow (iter st.stored.length) st with
    | none => some ⟨none, 2, r :: rs⟩
    | some st =>
      match rutConsume term (iter st.stored.length) r st with
      | .returned line flag => some ⟨line, flag, rs⟩
      | .running st => rutLoop term iter rs st

/-- `read_until_term`, called with this value in `*rtn_flag`. -/
def readUntilTerm (term : Byte) (env : CallEnv) (flag : ℤ) (rs : List ReadResult) :
    Option RutReturn :=
  match rutMalloc flag env.malloc with
  | .returned line flag => some ⟨line, flag, rs⟩
  | .running st => rutLoop term env.iter rs st

/-- The results of the reads of a descriptor that has these bytes left and then ends, up to the
first read at its end. -/
def results (bytes : List Byte) (ending : ReadResult) : List ReadResult :=
  bytes.map .byte ++ [ending]

/-- The bytes that reads still return. -/
def bytesLeft (rs : List ReadResult) : List Byte :=
  rs.filterMap fun
    | .byte c => some c
    | _ => none

@[simp] lemma bytesLeft_nil : bytesLeft [] = [] := rfl

@[simp] lemma bytesLeft_results_eof (bytes : List Byte) : bytesLeft (results bytes .eof) = bytes := by
  simp [bytesLeft, results]

@[simp] lemma bytesLeft_results_error (bytes : List Byte) :
    bytesLeft (results bytes .error) = bytes := by
  simp [bytesLeft, results]

/-! ## One iteration -/

/-- What holds before each iteration: the variables are in order, `bufsize` is the size of the
block, and the terminator has not been stored. -/
structure RutInv (term : Byte) (st : RutState) : Prop extends RutOk st where
  cap_eq : (st.cap : ℤ) = st.bufsize
  not_mem : term ∉ st.stored

variable {term : Byte} {env : IterEnv} {iter : ℕ → IterEnv} {st st' : RutState}

/-- **A buffer that has grown**: it has the same bytes and room for one more, and growing it again
does nothing. -/
lemma rutGrow_some (hst : RutInv term st) (h : rutGrow env st = some st') :
    RutInv term st' ∧ st'.stored = st.stored ∧ st'.flag = st.flag ∧
      (st'.stored.length : ℤ) < st'.bufsize - 1 ∧
      (st.stored = [] → st' = st) ∧ rutGrow env st' = some st' := by
  have hroom := hst.room
  have htwo := hst.two_le
  have hlt := hst.bufsize_lt
  have hstay : ∀ {st : RutState}, (st.stored.length : ℤ) < st.bufsize - 1 →
      rutGrow env st = some st := fun h => if_neg h.ne
  unfold rutGrow at h
  split_ifs at h with hfull
  · obtain ⟨before, hbefore, rfl⟩ := Option.map_eq_some_iff.mp h
    -- an overflow of `bufsize` would have made the allocation fail
    have hsize : toSizeT (signed32 (2 * st.bufsize)) < 2 ^ 63 := by
      unfold allocate at hbefore
      split_ifs at hbefore with hsize
      exact hsize
    have hno : 2 * st.bufsize < 2 ^ 31 := by
      by_contra hover
      have hneg : signed32 (2 * st.bufsize) = 2 * st.bufsize - 2 ^ 32 := by
        rw [signed32, Int.bmod_def]
        omega
      rw [hneg, toSizeT] at hsize
      omega
    have hdouble : signed32 (2 * st.bufsize) = 2 * st.bufsize := by
      rw [signed32, Int.bmod_eq_of_le] <;> omega
    have hcap : toSizeT (2 * st.bufsize) = (2 * st.bufsize).toNat :=
      toSizeT_of_nonneg (by omega) (by omega)
    simp only [hdouble, hcap] at *
    have hmore : (st.stored.length : ℤ) < 2 * st.bufsize - 1 := by omega
    refine ⟨⟨⟨?_, hno, ?_, hst.totRead_eq⟩, ?_, hst.not_mem⟩, trivial, trivial, hmore, ?_,
      hstay hmore⟩
    · show 2 ≤ 2 * st.bufsize
      omega
    · show (st.stored.length : ℤ) < 2 * st.bufsize
      omega
    · show (((2 * st.bufsize).toNat : ℕ) : ℤ) = 2 * st.bufsize
      omega
    · intro hnil
      rw [hnil, List.length_nil] at hfull
      omega
  · obtain rfl := Option.some.inj h
    have hmore : (st.stored.length : ℤ) < st.bufsize - 1 := by omega
    exact ⟨hst, rfl, rfl, hmore, fun _ => rfl, hstay hmore⟩

/-- The buffer fails to grow only if the allocation fails or the size would overflow. -/
lemma rutGrow_none (hst : RutInv term st) (h : rutGrow env st = none) :
    env.grow = none ∨ 2 ^ 30 - 1 ≤ st.stored.length := by
  by_contra hnot
  rw [not_or] at hnot
  obtain ⟨st', hst', -⟩ := rutGrow_ok hst.toRutOk (by omega)
    (Option.isSome_iff_ne_none.mpr hnot.1)
  rw [h] at hst'
  exact absurd hst' (by simp)

/-- The allocation at the start of a call. -/
lemma rutMalloc_cases (term : Byte) (flag : ℤ) (choice : Option Byte) :
    (choice = none ∧ rutMalloc flag choice = .returned none 1) ∨
      ∃ before st, choice = some before ∧ rutMalloc flag choice = .running st ∧ st.stored = [] ∧
        st.before = before ∧ st.flag = flag ∧ RutInv term st := by
  cases choice with
  | none => exact .inl ⟨rfl, rfl⟩
  | some before =>
    refine .inr ⟨before, _, rfl, rfl, rfl, rfl, rfl, ⟨⟨?_, ?_, ?_, rfl⟩, ?_, List.not_mem_nil⟩⟩
    · show 2 ≤ initialBufferSize
      decide
    · show initialBufferSize < 2 ^ 31
      decide
    · show (0 : ℤ) < initialBufferSize
      decide
    · show ((toSizeT initialBufferSize : ℕ) : ℤ) = initialBufferSize
      decide

/-- A line that is returned: its final NUL is inside the block, and its length is an `int`. -/
structure LineOk (line : Line) : Prop where
  nul_lt : line.bytes.length < line.cap
  length_lt : line.bytes.length < 2 ^ 31

/-- The return of what is stored. -/
lemma rutFinish_eq (hroom : (st.stored.length : ℤ) < st.bufsize) (hcap : (st.cap : ℤ) = st.bufsize)
    (hlt : st.bufsize < 2 ^ 31) :
    ∃ line, rutFinish env st = .returned (some line) st.flag ∧ line.bytes = st.stored ∧
      LineOk line := by
  have hlen : st.stored.length < 2 ^ 31 := by omega
  unfold rutFinish
  refine ⟨_, rfl, rfl, ?_, hlen⟩
  by_cases hshrink : (st.stored.length : ℤ) < st.bufsize - 1 ∧ env.shrink
  · rw [if_pos hshrink]
    exact Nat.lt_succ_self _
  · rw [if_neg hshrink]
    show st.stored.length < st.cap
    omega

/-- Consuming the end of the file: it returns what is stored, if anything. -/
lemma rutConsume_eof_cases (env : IterEnv) (hst : RutInv term st) :
    (st.stored = [] ∧ rutConsume term env .eof st = .returned none 4) ∨
      (st.stored ≠ [] ∧ ∃ line, rutConsume term env .eof st = .returned (some line) 5 ∧
        line.bytes = st.stored ∧ LineOk line) := by
  rcases eq_or_ne st.stored [] with hnil | hne
  · exact .inl ⟨hnil, rutConsume_eof hst.toRutOk hnil⟩
  · have hread : st.totRead ≠ 0 := by
      rw [hst.totRead_eq]
      exact fun h => hne (List.length_eq_zero_iff.mp h)
    have hconsume : rutConsume term env .eof st = rutFinish env { st with flag := 5 } :=
      if_neg hread
    rw [hconsume]
    exact .inr ⟨hne, rutFinish_eq hst.room hst.cap_eq hst.bufsize_lt⟩

/-- **Consuming a byte**: the terminator ends the piece, any other byte is stored. -/
lemma rutConsume_byte_cases (env : IterEnv) (hst : RutInv term st)
    (hroom : (st.stored.length : ℤ) < st.bufsize - 1) (c : Byte) :
    (c = term ∧ ∃ line, rutConsume term env (.byte c) st = .returned (some line) 0 ∧
      line.bytes = st.stored ++ [c] ∧ LineOk line) ∨
    (c ≠ term ∧ ∃ st', rutConsume term env (.byte c) st = .running st' ∧
      st'.stored = st.stored ++ [c] ∧ RutInv term st') := by
  set next : RutState :=
    { st with stored := st.stored ++ [c], totRead := sizeT (st.totRead + 1), flag := 0 } with hnext
  have hconsume : rutConsume term env (.byte c) st = rutTest term env next := rfl
  have hlast : next.lastByte = c := by
    simp [RutState.lastByte, hnext]
  have hok : RutOk next := hst.toRutOk.store hroom c
  rw [hconsume, rutTest, hlast]
  rcases eq_or_ne c term with hc | hc
  · rw [if_pos hc]
    exact .inl ⟨hc, rutFinish_eq hok.room hst.cap_eq hst.bufsize_lt⟩
  · rw [if_neg hc]
    refine .inr ⟨hc, next, rfl, rfl, hok, hst.cap_eq, ?_⟩
    intro hmem
    rcases List.mem_append.mp hmem with hmem | hmem
    · exact hst.not_mem hmem
    · exact hc (List.mem_singleton.mp hmem).symm

/-- The byte tested is not the terminator: it is stored, or in front of the buffer. -/
lemma RutInv.lastByte_ne (hst : RutInv term st) (h : st.stored ≠ [] ∨ st.before ≠ term) :
    st.lastByte ≠ term := by
  rw [RutState.lastByte]
  rcases List.eq_nil_or_concat st.stored with hnil | ⟨init, b, hb⟩
  · rw [hnil] at h ⊢
    exact h.resolve_left (fun hne => hne rfl)
  · intro hlast
    apply hst.not_mem
    rw [hb, List.concat_eq_append, List.getLastD_concat] at hlast
    rw [hb, List.concat_eq_append, hlast]
    exact List.mem_append_right _ List.mem_cons_self

/-! ## The ways to return -/

/-- What a call returns that has stored `stored` when these bytes are left and then the descriptor
ends, if no read is interrupted: the piece up to the terminator, what was left at the end of the
file, or `NULL` with the reason. -/
inductive PieceReturn (term : Byte) (iter : ℕ → IterEnv) (ending : ReadResult)
    (stored bytes : List Byte) : RutReturn → Prop
  | found {body tail : List Byte} {line : Line} (hbytes : bytes = body ++ term :: tail)
      (hbody : term ∉ body) (hline : line.bytes = stored ++ (body ++ [term])) (hok : LineOk line) :
      PieceReturn term iter ending stored bytes ⟨some line, 0, results tail ending⟩
  | eof {line : Line} (hending : ending = .eof) (hbytes : term ∉ bytes)
      (hne : stored ++ bytes ≠ []) (hline : line.bytes = stored ++ bytes) (hok : LineOk line) :
      PieceReturn term iter ending stored bytes ⟨some line, 5, []⟩
  | empty (hending : ending = .eof) (hnil : stored ++ bytes = []) :
      PieceReturn term iter ending stored bytes ⟨none, 4, []⟩
  | error (hending : ending = .error) (hbytes : term ∉ bytes) :
      PieceReturn term iter ending stored bytes ⟨none, 3, []⟩
  | noMemory {read tail : List Byte} (hbytes : bytes = read ++ tail) (hread : term ∉ read)
      (hgrow : (∃ n, (iter n).grow = none) ∨ 2 ^ 30 - 1 ≤ (stored ++ read).length) :
      PieceReturn term iter ending stored bytes ⟨none, 2, results tail ending⟩

/-- One more byte that is stored. -/
lemma PieceReturn.cons {ending : ReadResult} {stored bytes : List Byte} {c : Byte} {ret : RutReturn}
    (hc : c ≠ term) (h : PieceReturn term iter ending (stored ++ [c]) bytes ret) :
    PieceReturn term iter ending stored (c :: bytes) ret := by
  cases h with
  | @found body tail line hbytes hbody hline hok =>
    have hbytes' : c :: bytes = (c :: body) ++ term :: tail := congrArg (c :: ·) hbytes
    refine .found hbytes' ?_ (by rw [hline]; simp) hok
    exact List.not_mem_cons_of_ne_of_not_mem (Ne.symm hc) hbody
  | eof hending hbytes hne hline hok =>
    refine .eof hending ?_ (by simp) (by rw [hline]; simp) hok
    exact List.not_mem_cons_of_ne_of_not_mem (Ne.symm hc) hbytes
  | empty hending hnil => simp at hnil
  | error hending hbytes =>
    exact .error hending (List.not_mem_cons_of_ne_of_not_mem (Ne.symm hc) hbytes)
  | @noMemory read tail hbytes hread hgrow =>
    have hbytes' : c :: bytes = (c :: read) ++ tail := congrArg (c :: ·) hbytes
    refine .noMemory hbytes' ?_ (by simpa using hgrow)
    exact List.not_mem_cons_of_ne_of_not_mem (Ne.symm hc) hread

/-- **The loop returns in one of these ways.**

**Proof sketch.** Induction on the bytes left. In each iteration the buffer fails to grow, or the
next byte is the terminator, or it is stored and the loop goes on; at the end of the bytes the
result of the read at the end is consumed. -/
lemma rutLoop_results (iter : ℕ → IterEnv) {ending : ReadResult}
    (hending : ending = .eof ∨ ending = .error) (bytes : List Byte) (hst : RutInv term st) :
    ∃ ret, rutLoop term iter (results bytes ending) st = some ret ∧
      PieceReturn term iter ending st.stored bytes ret := by
  induction bytes generalizing st with
  | nil =>
    simp only [results, List.map_nil, List.nil_append, rutLoop]
    cases hgrow : rutGrow (iter st.stored.length) st with
    | none =>
      refine ⟨_, rfl, .noMemory (List.nil_append []).symm List.not_mem_nil ?_⟩
      rw [List.append_nil]
      exact (rutGrow_none hst hgrow).imp_left fun h => ⟨_, h⟩
    | some st' =>
      obtain ⟨hst', hstored, -, -, -, -⟩ := rutGrow_some hst hgrow
      rcases hending with rfl | rfl
      · rcases rutConsume_eof_cases (iter st'.stored.length) hst' with
          ⟨hnil, heof⟩ | ⟨hne, line, heof, hbytes, hok⟩ <;> simp only [heof]
        · refine ⟨_, rfl, .empty rfl ?_⟩
          rw [← hstored, hnil, List.append_nil]
        · refine ⟨_, rfl, .eof rfl List.not_mem_nil ?_ ?_ hok⟩ <;>
            rw [List.append_nil, ← hstored]
          · exact hne
          · exact hbytes
      · exact ⟨_, rfl, .error rfl List.not_mem_nil⟩
  | cons c bytes ih =>
    rw [results, List.map_cons, List.cons_append, rutLoop, ← results]
    cases hgrow : rutGrow (iter st.stored.length) st with
    | none =>
      refine ⟨_, rfl, .noMemory (List.nil_append _).symm List.not_mem_nil ?_⟩
      rw [List.append_nil]
      exact (rutGrow_none hst hgrow).imp_left fun h => ⟨_, h⟩
    | some st' =>
      obtain ⟨hst', hstored, -, hroom, -, -⟩ := rutGrow_some hst hgrow
      rcases rutConsume_byte_cases (iter st'.stored.length) hst' hroom c with
        ⟨rfl, line, hret, hline, hok⟩ | ⟨hc, st'', hrun, hstored', hst''⟩
      · simp only [hret]
        refine ⟨_, rfl, .found (List.nil_append _).symm List.not_mem_nil ?_ hok⟩
        rw [hline, hstored, List.nil_append]
      · simp only [hrun]
        obtain ⟨ret, hret, hpiece⟩ := ih hst''
        rw [hstored', hstored] at hpiece
        exact ⟨ret, hret, hpiece.cons hc⟩

/-- **A call that no read interrupts**: its first allocation fails, or it returns in one of these
ways. -/
theorem readUntilTerm_results (term : Byte) {ending : ReadResult} (hending : ending = .eof ∨ ending = .error)
    (env : CallEnv) (flag : ℤ) (bytes : List Byte) :
    ∃ ret, readUntilTerm term env flag (results bytes ending) = some ret ∧
      ((env.malloc = none ∧ ret = ⟨none, 1, results bytes ending⟩) ∨
        PieceReturn term env.iter ending [] bytes ret) := by
  unfold readUntilTerm
  rcases rutMalloc_cases term flag env.malloc with
    ⟨hnone, h⟩ | ⟨before, st, -, h, hstored, -, -, hst⟩ <;> rw [h]
  · exact ⟨_, rfl, .inl ⟨hnone, rfl⟩⟩
  · obtain ⟨ret, hret, hpiece⟩ := rutLoop_results env.iter hending bytes hst
    rw [hstored] at hpiece
    exact ⟨ret, hret, .inr hpiece⟩

end Aesd
