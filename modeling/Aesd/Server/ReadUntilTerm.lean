import Aesd.Driver.Kernel

set_option relaxedAutoImplicit false
set_option autoImplicit false

/-!
# Reading up to a terminator

`read_until_term` of `server/include/utils.c` reads a descriptor byte by byte into a buffer that
doubles when it is full, until the terminator or the end of the file. One iteration of its loop is
a step, so that the steps of several threads can be interleaved; the outcome of each system call
in it comes in as an argument.

The buffer is the list of the bytes stored so far: their number is the variable `offset`, which
cannot come near the end of the `int` range, as the buffer cannot grow to it. The byte of memory
in front of the buffer is recorded because the loop condition reads it when the first read is
interrupted.

## Main definitions

* `Aesd.RutState` — the variables of the function inside its loop.
* `Aesd.rutMalloc`, `Aesd.rutGrow`, `Aesd.rutConsume` — its stages.
* `Aesd.RutOk` — no variable has overflowed and the buffer has room.
* `Aesd.Terminated` — the lines the function can return whole.

## Main results

* `Aesd.rutStep_line` — an iteration that reads the next byte of a line.
-/

namespace Aesd

/-- The value of an `int`. -/
def signed32 (x : ℤ) : ℤ := Int.bmod x (2 ^ 32)

/-- The outcomes of a `read` of one byte. -/
inductive ReadResult where
  | byte (c : Byte)
  | eof
  | eintr
  | error
deriving DecidableEq

/-- `INITIAL_BUFFER_SIZE`. -/
def initialBufferSize : ℤ := 128

/-- `malloc` or `realloc` of a number of bytes: the byte of memory in front of the new block, or
`none` for `NULL`. More than `PTRDIFF_MAX` bytes are never allocated. -/
def allocate (size : ℕ) (choice : Option Byte) : Option Byte :=
  if size < 2 ^ 63 then choice else none

/-- The variables of `read_until_term` inside its loop: the bytes stored, the byte in front of the
buffer, `bufsize`, the size of the block, `tot_read` and `*rtn_flag`. -/
structure RutState where
  stored : List Byte
  before : Byte
  bufsize : ℤ
  cap : ℕ
  totRead : ℕ
  flag : ℤ

/-- A line returned by `read_until_term`: the bytes before its final NUL, of which there are
`*bytes_read`, and the size of its block. -/
structure Line where
  bytes : List Byte
  cap : ℕ

/-- What an iteration leads to: another iteration, or the return of a line, `none` for `NULL`, with
`*rtn_flag`. -/
inductive RutOutcome where
  | running (st : RutState)
  | returned (line : Option Line) (flag : ℤ)

/-- The outcomes of the allocations inside one iteration: of the `realloc` that grows the buffer,
and whether the one that shrinks it succeeds. -/
structure IterEnv where
  grow : Option Byte
  shrink : Bool

/-- The first part of `read_until_term`: allocate the buffer. -/
def rutMalloc (flag : ℤ) (choice : Option Byte) : RutOutcome :=
  match allocate (toSizeT initialBufferSize) choice with
  | none => .returned none 1
  | some before =>
    .running
      { stored := [], before, bufsize := initialBufferSize, cap := toSizeT initialBufferSize
        totRead := 0, flag }

/-- Double the buffer if there is only room for the NUL; `none` if that fails, in which case
`NULL` is returned with the flag `2`. -/
def rutGrow (env : IterEnv) (st : RutState) : Option RutState :=
  if (st.stored.length : ℤ) = st.bufsize - 1 then
    let bufsize := signed32 (2 * st.bufsize)
    (allocate (toSizeT bufsize) env.grow).map fun before =>
      { st with before, bufsize, cap := toSizeT bufsize }
  else some st

/-- After the loop: shrink the buffer, if it has room to spare and that succeeds, and return
it. -/
def rutFinish (env : IterEnv) (st : RutState) : RutOutcome :=
  let cap :=
    if (st.stored.length : ℤ) < st.bufsize - 1 ∧ env.shrink then st.stored.length + 1 else st.cap
  .returned (some ⟨st.stored, cap⟩) st.flag

/-- The byte `buf[offset - 1]`: the last one stored, or the one in front of the buffer. -/
def RutState.lastByte (st : RutState) : Byte := st.stored.getLastD st.before

/-- The loop condition. -/
def rutTest (term : Byte) (env : IterEnv) (st : RutState) : RutOutcome :=
  if st.lastByte = term then rutFinish env st else .running st

/-- The rest of an iteration, from the result of its `read` on. After an interrupted `read` the
`continue` goes to the loop condition. -/
def rutConsume (term : Byte) (env : IterEnv) (r : ReadResult) (st : RutState) : RutOutcome :=
  match r with
  | .eintr => rutTest term env st
  | .error => .returned none 3
  | .eof => if st.totRead = 0 then .returned none 4 else rutFinish env { st with flag := 5 }
  | .byte c =>
    rutTest term env
      { st with stored := st.stored ++ [c], totRead := sizeT (st.totRead + 1), flag := 0 }

/-! ## Iterations that read a byte -/

/-- The buffer has room for the NUL, its size is positive as an `int`, and `tot_read` counts the
bytes stored. -/
structure RutOk (st : RutState) : Prop where
  two_le : 2 ≤ st.bufsize
  bufsize_lt : st.bufsize < 2 ^ 31
  room : (st.stored.length : ℤ) < st.bufsize
  totRead_eq : st.totRead = st.stored.length

variable {term : Byte} {env : IterEnv} {st : RutState} {c : Byte}

/-- The allocation at the start succeeds if the environment lets it. -/
lemma rutMalloc_some (flag : ℤ) (before : Byte) :
    ∃ st, rutMalloc flag (some before) = .running st ∧ st.stored = [] ∧ RutOk st :=
  ⟨_, rfl, rfl, show 2 ≤ initialBufferSize by decide, show initialBufferSize < 2 ^ 31 by decide,
    show (0 : ℤ) < initialBufferSize by decide, rfl⟩

/-- The buffer grows if the environment lets it, as long as less than `2 ^ 30 - 1` bytes are
stored. -/
lemma rutGrow_ok (hst : RutOk st) (hlen : st.stored.length < 2 ^ 30 - 1) (henv : env.grow.isSome) :
    ∃ st', rutGrow env st = some st' ∧ st'.stored = st.stored ∧ RutOk st' ∧
      (st.stored.length : ℤ) < st'.bufsize - 1 := by
  have hroom := hst.room
  have htwo := hst.two_le
  obtain ⟨before, hbefore⟩ := Option.isSome_iff_exists.mp henv
  unfold rutGrow
  split_ifs with hfull
  · have hsize : signed32 (2 * st.bufsize) = 2 * st.bufsize := by
      rw [signed32, Int.bmod_eq_of_le] <;> omega
    have hsizeT : toSizeT (2 * st.bufsize) < 2 ^ 63 := by
      rw [toSizeT_of_nonneg (by omega) (by omega)]
      omega
    set big : RutState :=
      { st with before, bufsize := 2 * st.bufsize, cap := toSizeT (2 * st.bufsize) } with hbig
    have hgrown : (allocate (toSizeT (2 * st.bufsize)) env.grow).map (fun before =>
        { st with before, bufsize := 2 * st.bufsize, cap := toSizeT (2 * st.bufsize) }) =
        some big := by
      rw [allocate, if_pos hsizeT, hbefore, Option.map_some]
    have hbufsize : big.bufsize = 2 * st.bufsize := rfl
    have hstored : big.stored = st.stored := rfl
    refine ⟨big, by rw [hsize]; exact hgrown, rfl, ⟨?_, ?_, ?_, hst.totRead_eq⟩, ?_⟩ <;>
      rw [hbufsize]
    · omega
    · omega
    · rw [hstored]
      omega
    · omega
  · exact ⟨st, rfl, rfl, hst, by omega⟩

/-- Storing a byte that leaves room for the NUL. -/
lemma RutOk.store (hst : RutOk st) (hroom : (st.stored.length : ℤ) < st.bufsize - 1) (c : Byte) :
    RutOk
      { st with stored := st.stored ++ [c], totRead := sizeT (st.totRead + 1), flag := 0 } := by
  have hlen : (st.stored ++ [c]).length = st.stored.length + 1 := by
    rw [List.length_append, List.length_singleton]
  refine ⟨hst.two_le, hst.bufsize_lt, ?_, ?_⟩
  · dsimp only
    rw [hlen]
    omega
  · have hlt := hst.bufsize_lt
    rw [hlen, ← hst.totRead_eq]
    apply sizeT_of_lt
    rw [hst.totRead_eq]
    omega

/-- **Consuming a byte** stores it and returns the line if it is the terminator. -/
lemma rutConsume_byte (hst : RutOk st) (hroom : (st.stored.length : ℤ) < st.bufsize - 1) :
    (c = term → ∃ cap, rutConsume term env (.byte c) st =
      .returned (some ⟨st.stored ++ [c], cap⟩) 0) ∧
    (c ≠ term → ∃ st', rutConsume term env (.byte c) st = .running st' ∧
      st'.stored = st.stored ++ [c] ∧ RutOk st') := by
  set next : RutState :=
    { st with stored := st.stored ++ [c], totRead := sizeT (st.totRead + 1), flag := 0 } with hnext
  have hlast : next.lastByte = c := by
    simp [RutState.lastByte, hnext]
  constructor
  · intro hc
    exact ⟨_, if_pos (hlast.trans hc)⟩
  · intro hc
    exact ⟨next, if_neg (by rwa [hlast]), rfl, hst.store hroom c⟩

/-- Consuming the end of the file before any byte returns `NULL` with the flag `4`. -/
lemma rutConsume_eof (hst : RutOk st) (h : st.stored = []) :
    rutConsume term env .eof st = .returned none 4 := by
  have h0 : st.totRead = 0 := by rw [hst.totRead_eq, h, List.length_nil]
  rw [rutConsume, if_pos h0]

/-! ## Reading a line -/

/-- The terminator ends the line and does not occur before, and the line fits the largest
buffer. -/
structure Terminated (term : Byte) (line : List Byte) : Prop where
  ends : ∃ body, line = body ++ [term] ∧ term ∉ body
  length_lt : line.length < 2 ^ 30 - 1

/-- A line is not empty. -/
lemma Terminated.exists_cons {line : List Byte} (h : Terminated term line) :
    ∃ c tail, line = c :: tail := by
  obtain ⟨body, hline, -⟩ := h.ends
  cases body with
  | nil => exact ⟨term, [], hline⟩
  | cons c body => exact ⟨c, body ++ [term], hline⟩

/-- A byte of a line is the terminator exactly if it is the last one. -/
lemma Terminated.eq_term_iff {line front tail : List Byte} (h : Terminated term line)
    (hsplit : line = front ++ c :: tail) : c = term ↔ tail = [] := by
  obtain ⟨body, hline, hbody⟩ := h.ends
  rcases List.eq_nil_or_concat tail with rfl | ⟨init, b, rfl⟩
  · rw [hline] at hsplit
    have h := (List.append_inj' hsplit rfl).2
    simpa using (List.cons.inj h).1.symm
  · refine iff_of_false ?_ (by simp)
    intro hc
    apply hbody
    have h : body ++ [term] = (front ++ c :: init) ++ [b] := by
      rw [← hline, hsplit, List.append_assoc, List.cons_append, List.concat_eq_append]
    rw [(List.append_inj' h rfl).1, hc]
    exact List.mem_append_right _ List.mem_cons_self

/-- **Reading the next byte of a line**: the iteration stores it, and returns the line if that was
its last byte. -/
lemma rutStep_line {line tail : List Byte} (hline : Terminated term line) (hst : RutOk st)
    (hsplit : line = st.stored ++ c :: tail) (henv : env.grow.isSome) :
    ∃ st₁, rutGrow env st = some st₁ ∧
      ((tail = [] ∧ ∃ cap, rutConsume term env (.byte c) st₁ = .returned (some ⟨line, cap⟩) 0) ∨
        (tail ≠ [] ∧ ∃ st', rutConsume term env (.byte c) st₁ = .running st' ∧
          st'.stored = st.stored ++ [c] ∧ RutOk st')) := by
  have hlen : st.stored.length < 2 ^ 30 - 1 := by
    have h := hline.length_lt
    rw [hsplit, List.length_append, List.length_cons] at h
    omega
  obtain ⟨st₁, hgrow, hstored, hok, hroom⟩ := rutGrow_ok hst hlen henv
  rw [← hstored] at hroom
  obtain ⟨hlast, hmore⟩ := rutConsume_byte hok hroom
  refine ⟨st₁, hgrow, ?_⟩
  by_cases hc : c = term
  · have htail := (hline.eq_term_iff hsplit).mp hc
    obtain ⟨cap, hret⟩ := hlast hc
    refine .inl ⟨htail, cap, ?_⟩
    rw [hret, hsplit, hstored, htail]
  · obtain ⟨st', hrun, hst', hok'⟩ := hmore hc
    refine .inr ⟨fun h => hc ((hline.eq_term_iff hsplit).mpr h), st', hrun, ?_, hok'⟩
    rw [hst', hstored]

end Aesd
