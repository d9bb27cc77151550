import Aesd.Lib.Pieces
import Aesd.Server.ReadCall

set_option relaxedAutoImplicit false
set_option autoImplicit false

/-!
# `read_until_term` splits a stream

Called again and again until it returns `NULL`, `read_until_term` splits what a descriptor delivers
after each terminator, if no read is interrupted. The pieces it returns are a prefix of the stream,
and all of it if the stream ends in end of file and no allocation fails.

## Main definitions

* `Aesd.RutCall`, `Aesd.readPieces` — the calls until the first `NULL`.
* `Aesd.PieceCalls` — these calls, by the ways each can return.
* `Aesd.SplitsOff` — a call that returns a piece.

## Main results

* `Aesd.pieceCalls_readPieces` — the calls return in one of the ways.
* `Aesd.PieceCalls.split_eq` — without a failure the pieces are those of the stream.
* `Aesd.stream_split` — the calls split every stream without loss.
-/

namespace Aesd

/-- One call: the bytes left before it, and what it gave back. -/
structure RutCall where
  before : List Byte
  ret : RutReturn

/-- The bytes of the piece a call returned. -/
def RutCall.piece (c : RutCall) : List Byte :=
  match c.ret.line with
  | none => []
  | some line => line.bytes

@[simp] lemma RutCall.piece_some (before : List Byte) (line : Line) (flag : ℤ)
    (rest : List ReadResult) : RutCall.piece ⟨before, some line, flag, rest⟩ = line.bytes := rfl

/-- The calls on a descriptor up to the first that returns `NULL`, with the number of calls left.
The flag is the one the call before has left. -/
def readPieces (term : Byte) (ending : ReadResult) (envs : ℕ → CallEnv) :
    ℕ → ℕ → ℤ → List Byte → List RutCall
  | 0, _, _, _ => []
  | fuel + 1, k, flag, bytes =>
    match readUntilTerm term (envs k) flag (results bytes ending) with
    | none => []
    | some ret =>
      if ret.line.isSome then
        ⟨bytes, ret⟩ :: readPieces term ending envs fuel (k + 1) ret.flag (bytesLeft ret.rest)
      else [⟨bytes, ret⟩]

/-- Every allocation of the call that it cannot do without succeeds. -/
def CallEnv.Succeeds (env : CallEnv) : Prop := env.malloc.isSome ∧ ∀ n, (env.iter n).grow.isSome

/-- A call returned `NULL` although bytes may be left: an allocation failed, or a piece reached the
largest size of the buffer. -/
def OutOfMemory (term : Byte) (env : CallEnv) (bytes : List Byte) : Prop :=
  ¬env.Succeeds ∨ ∃ p ∈ Pieces.split term bytes, 2 ^ 30 - 1 ≤ p.length

/-- The calls on a descriptor with these bytes left, up to the first that returns `NULL`. -/
inductive PieceCalls (term : Byte) (ending : ReadResult) (envs : ℕ → CallEnv) :
    List Byte → List RutCall → Prop
  | found {body tail : List Byte} {line : Line} {calls : List RutCall} (hbody : term ∉ body)
      (hline : line.bytes = body ++ [term]) (hok : LineOk line)
      (hrest : PieceCalls term ending envs tail calls) :
      PieceCalls term ending envs (body ++ term :: tail)
        (⟨body ++ term :: tail, some line, 0, results tail ending⟩ :: calls)
  | eof {bytes : List Byte} {line : Line} {calls : List RutCall} (hending : ending = .eof)
      (hbytes : term ∉ bytes) (hne : bytes ≠ []) (hline : line.bytes = bytes) (hok : LineOk line)
      (hrest : PieceCalls term ending envs [] calls) :
      PieceCalls term ending envs bytes (⟨bytes, some line, 5, []⟩ :: calls)
  | empty (hending : ending = .eof) : PieceCalls term ending envs [] [⟨[], none, 4, []⟩]
  | error {bytes : List Byte} (hending : ending = .error) :
      PieceCalls term ending envs bytes [⟨bytes, none, 3, []⟩]
  | noMemory {bytes : List Byte} {flag : ℤ} {rest : List ReadResult} {k : ℕ}
      (hflag : flag = 1 ∨ flag = 2) (hmemory : OutOfMemory term (envs k) bytes) :
      PieceCalls term ending envs bytes [⟨bytes, none, flag, rest⟩]

/-- A call that returned a piece: it reported its length, a NUL follows it within the block, it read
the piece and nothing more, and the flag says whether the piece is complete. -/
structure SplitsOff (term : Byte) (ending : ReadResult) (c : RutCall) (line : Line) : Prop where
  line_eq : c.ret.line = some line
  bytesRead_eq : line.bytesRead = line.bytes.length
  nul_eq : line.block[line.bytesRead.toNat]? = some 0
  block_le : line.block.length ≤ line.cap
  before_eq : c.before = line.bytes ++ bytesLeft c.ret.rest
  flag_cases : (c.ret.flag = 0 ∧ Pieces.Complete term line.bytes) ∨
    (c.ret.flag = 5 ∧ line.bytes ≠ [] ∧ term ∉ line.bytes ∧ ending = .eof ∧
      bytesLeft c.ret.rest = [])

variable {term : Byte} {ending : ReadResult} {envs : ℕ → CallEnv} {bytes : List Byte}
  {calls : List RutCall}

/-- The number of bytes is reported as it is. -/
lemma LineOk.bytesRead_eq {line : Line} (h : LineOk line) : line.bytesRead = line.bytes.length := by
  have hlt := h.length_lt
  rw [Line.bytesRead, signed32, Int.bmod_eq_of_le] <;> omega

/-- The NUL is at the index reported. -/
lemma LineOk.nul_eq {line : Line} (h : LineOk line) : line.block[line.bytesRead.toNat]? = some 0 := by
  rw [h.bytesRead_eq, Int.toNat_natCast, Line.block, List.getElem?_append_right le_rfl, Nat.sub_self]
  rfl

/-- The NUL is in the block. -/
lemma LineOk.block_le {line : Line} (h : LineOk line) : line.block.length ≤ line.cap := by
  have hnul := h.nul_lt
  rw [Line.block, List.length_append, List.length_singleton]
  omega

/-- The bytes left behind in front of the end. -/
lemma bytesLeft_results (hending : ending = .eof ∨ ending = .error) (bytes : List Byte) :
    bytesLeft (results bytes ending) = bytes := by
  rcases hending with rfl | rfl <;> simp

/-- **The calls return in one of the ways**, the last one `NULL`, if there are more calls than
bytes.

**Proof sketch.** Induction on the number of calls. A call that returns a piece has read at least
one byte, so that fewer are left. -/
lemma pieceCalls_readPieces (hending : ending = .eof ∨ ending = .error) {fuel : ℕ}
    (hfuel : bytes.length < fuel) (k : ℕ) (flag : ℤ) :
    PieceCalls term ending envs bytes (readPieces term ending envs fuel k flag bytes) := by
  induction fuel generalizing bytes k flag with
  | zero => omega
  | succ fuel ih =>
    obtain ⟨ret, hret, ⟨hmalloc, rfl⟩ | hpiece⟩ :=
      readUntilTerm_results term hending (envs k) flag bytes
    · rw [readPieces, hret]
      refine .noMemory (k := k) (.inl rfl) (.inl fun h => ?_)
      rw [CallEnv.Succeeds, hmalloc] at h
      exact absurd h.1 (by simp)
    · rw [readPieces, hret]
      cases hpiece with
      | @found body tail line hbytes hbody hline hok =>
        subst hbytes
        rw [List.length_append, List.length_cons] at hfuel
        simp only [Option.isSome_some, if_true, bytesLeft_results hending]
        exact .found hbody hline hok (ih (by omega) _ _)
      | eof hend hbytes hne hline hok =>
        simp only [Option.isSome_some, if_true, bytesLeft_nil]
        have hpos := List.length_pos_iff.mpr hne
        rw [List.nil_append] at hpos
        exact .eof hend hbytes hne hline hok (ih (by rw [List.length_nil]; omega) _ _)
      | empty hend hnil =>
        rw [List.nil_append] at hnil
        subst hnil
        exact .empty hend
      | error hend hbytes => exact .error hend
      | @noMemory read tail hbytes hread hgrow =>
        refine .noMemory (k := k) (.inr rfl) ?_
        rcases hgrow with ⟨n, hn⟩ | hlong
        · refine .inl fun h => ?_
          have hgrown := h.2 n
          rw [hn] at hgrown
          exact absurd hgrown (by simp)
        · rw [List.nil_append] at hlong
          have hne : read ≠ [] := by
            rintro rfl
            exact absurd hlong (by decide)
          obtain ⟨p, hp, hle⟩ := Pieces.exists_head_split hread hne tail
          exact .inr ⟨p, hbytes ▸ List.mem_of_head? hp, hlong.trans hle⟩

/-! ## What the calls return -/

namespace PieceCalls

/-- The calls are the ones that return a piece, and a last one that returns `NULL`. -/
lemma exists_last (h : PieceCalls term ending envs bytes calls) :
    ∃ pieces last, calls = pieces ++ [last] ∧ last.ret.line = none ∧
      ∀ c ∈ pieces, c.ret.line.isSome := by
  induction h with
  | @found body tail line calls hbody hline hok hrest ih =>
    obtain ⟨pieces, last, rfl, hlast, hpieces⟩ := ih
    exact ⟨_ :: pieces, last, rfl, hlast, List.forall_mem_cons.mpr ⟨rfl, hpieces⟩⟩
  | @eof bytes line calls hending hbytes hne hline hok hrest ih =>
    obtain ⟨pieces, last, rfl, hlast, hpieces⟩ := ih
    exact ⟨_ :: pieces, last, rfl, hlast, List.forall_mem_cons.mpr ⟨rfl, hpieces⟩⟩
  | _ => exact ⟨[], _, rfl, rfl, by simp⟩

/-- The pieces are a prefix of the stream. -/
lemma flatten_prefix (h : PieceCalls term ending envs bytes calls) :
    (calls.map RutCall.piece).flatten <+: bytes := by
  induction h with
  | @found body tail line calls hbody hline hok hrest ih =>
    rw [List.map_cons, List.flatten_cons, RutCall.piece_some, hline, List.append_assoc]
    exact (List.prefix_append_right_inj body).mpr (List.cons_prefix_cons.mpr ⟨rfl, ih⟩)
  | @eof bytes line calls hending hbytes hne hline hok hrest ih =>
    rw [List.map_cons, List.flatten_cons, List.prefix_nil.mp ih, RutCall.piece_some, hline,
      List.append_nil]
  | _ => exact List.nil_prefix

/-- **Without a failure the pieces are those of the stream.** -/
lemma split_eq (h : PieceCalls term .eof envs bytes calls) (hsucceed : ∀ k, (envs k).Succeeds)
    (hlen : ∀ p ∈ Pieces.split term bytes, p.length < 2 ^ 30 - 1) :
    calls.map RutCall.piece = Pieces.split term bytes ++ [[]] := by
  generalize hend : ReadResult.eof = ending at h
  induction h with
  | @found body tail line calls hbody hline hok hrest ih =>
    rw [Pieces.split_append hbody] at hlen ⊢
    rw [List.map_cons, ih fun p hp => hlen p (List.mem_cons_of_mem _ hp), RutCall.piece_some, hline,
      List.cons_append]
  | @eof bytes line calls hending hbytes hne hline hok hrest ih =>
    rw [Pieces.split_of_not_mem hbytes hne, List.map_cons, ih (by simp [Pieces.split]),
      RutCall.piece_some, hline]
    rfl
  | empty hending => rfl
  | error hending => exact absurd (hend.trans hending) (by simp)
  | noMemory hflag hmemory =>
    rcases hmemory with hfail | ⟨p, hp, hlong⟩
    · exact absurd (hsucceed _) hfail
    · exact absurd (hlen p hp) (by omega)

/-- A call that returns something has split off a piece. -/
lemma splitsOff (hending : ending = .eof ∨ ending = .error)
    (h : PieceCalls term ending envs bytes calls) {c : RutCall} (hc : c ∈ calls)
    (hsome : c.ret.line.isSome) : ∃ line, SplitsOff term ending c line := by
  induction h with
  | @found body tail line calls hbody hline hok hrest ih =>
    rcases List.mem_cons.mp hc with rfl | hc
    · refine ⟨line, rfl, hok.bytesRead_eq, hok.nul_eq, hok.block_le, ?_,
        .inl ⟨rfl, body, hline, hbody⟩⟩
      rw [hline, bytesLeft_results hending]
      simp
    · exact ih hc
  | @eof bytes line calls hend hbytes hne hline hok hrest ih =>
    rcases List.mem_cons.mp hc with rfl | hc
    · refine ⟨line, rfl, hok.bytesRead_eq, hok.nul_eq, hok.block_le, ?_,
        .inr ⟨rfl, ?_, ?_, hend, rfl⟩⟩
      · rw [hline]
        exact (List.append_nil _).symm
      · rwa [hline]
      · rwa [hline]
    · exact ih hc
  | _ =>
    rw [List.mem_singleton.mp hc] at hsome
    exact absurd hsome (by simp)

/-- `NULL` comes with the flags `1` to `4` and no others, and the flag `4` only if no byte was
left. -/
lemma null_iff (h : PieceCalls term ending envs bytes calls) {c : RutCall} (hc : c ∈ calls) :
    (c.ret.line = none ↔ c.ret.flag ∈ [1, 2, 3, 4]) ∧ (c.ret.flag = 4 → c.before = []) := by
  induction h with
  | found hbody hline hok hrest ih =>
    rcases List.mem_cons.mp hc with rfl | hc
    · simp
    · exact ih hc
  | eof hending hbytes hne hline hok hrest ih =>
    rcases List.mem_cons.mp hc with rfl | hc
    · simp
    · exact ih hc
  | empty hending =>
    rw [List.mem_singleton.mp hc]
    simp
  | error hending =>
    rw [List.mem_singleton.mp hc]
    simp
  | noMemory hflag hmemory =>
    rw [List.mem_singleton.mp hc]
    rcases hflag with rfl | rfl <;> simp

/-- After a piece with the flag `5` no other piece follows. -/
lemma flag_eq_zero (h : PieceCalls term ending envs bytes calls) :
    ∀ c ∈ calls.dropLast.dropLast, c.ret.flag = 0 := by
  induction h with
  | @found body tail line calls hbody hline hok hrest ih =>
    obtain ⟨pieces, last, rfl, -⟩ := hrest.exists_last
    rw [← List.cons_append, List.dropLast_concat]
    rw [List.dropLast_concat] at ih
    cases pieces with
    | nil => simp
    | cons c pieces =>
      rw [List.dropLast_cons_cons]
      exact List.forall_mem_cons.mpr ⟨rfl, ih⟩
  | @eof bytes line calls hending hbytes hne hline hok hrest ih =>
    -- the only call on an exhausted descriptor returns `NULL`
    generalize hnil : ([] : List Byte) = left at hrest
    cases hrest with
    | found => simp at hnil
    | eof hending hbytes hne => exact absurd hnil.symm hne
    | _ => simp
  | _ => simp

end PieceCalls

/-- **`read_until_term` splits any stream without loss.** For every terminator, every stream that
ends in end of file or in a read error and has no piece of `2 ^ 30 - 1` bytes or more, and all
outcomes of the allocations: the calls until the first `NULL` return pieces whose concatenation is
a prefix of the stream, and the whole stream if it ends in end of file and every allocation
succeeds. Every piece is split off as `SplitsOff` says, where only the last can have the flag `5`;
`NULL` is returned with the flags `1` to `4` and no others, and the flag `4` only if the call read
no byte.

**Proof sketch.** `pieceCalls_readPieces` gives the way each call returns, from which each part
follows by induction on the calls. -/
theorem stream_split {term : Byte} {ending : ReadResult} {bytes : List Byte}
    (hending : ending = .eof ∨ ending = .error)
    (hlen : ∀ p ∈ Pieces.split term bytes, p.length < 2 ^ 30 - 1) (envs : ℕ → CallEnv) (flag : ℤ) :
    ∃ pieces last,
      readPieces term ending envs (bytes.length + 1) 0 flag bytes = pieces ++ [last] ∧
      last.ret.line = none ∧
      (pieces.map RutCall.piece).flatten <+: bytes ∧
      (ending = .eof → (∀ k, (envs k).Succeeds) →
        (pieces.map RutCall.piece).flatten = bytes ∧
          pieces.map RutCall.piece = Pieces.split term bytes) ∧
      (∀ c ∈ pieces, ∃ line, SplitsOff term ending c line) ∧
      (∀ c ∈ pieces.dropLast, c.ret.flag = 0) ∧
      ∀ c ∈ pieces ++ [last],
        (c.ret.line = none ↔ c.ret.flag ∈ [1, 2, 3, 4]) ∧ (c.ret.flag = 4 → c.before = []) := by
  have hcalls : PieceCalls term ending envs bytes
      (readPieces term ending envs (bytes.length + 1) 0 flag bytes) :=
    pieceCalls_readPieces hending (Nat.lt_succ_self bytes.length) 0 flag
  obtain ⟨pieces, last, heq, hlast, hsome⟩ := hcalls.exists_last
  rw [heq] at hcalls
  have hpiece : last.piece = [] := by rw [RutCall.piece, hlast]
  have hflatten : ((pieces ++ [last]).map RutCall.piece).flatten =
      (pieces.map RutCall.piece).flatten := by
    simp [hpiece]
  refine ⟨pieces, last, heq, hlast, hflatten ▸ hcalls.flatten_prefix, ?_, ?_, ?_,
    fun c hc => hcalls.null_iff hc⟩
  · rintro rfl hsucceed
    have hsplit := hcalls.split_eq hsucceed hlen
    rw [List.map_append, List.map_singleton, hpiece, List.append_left_inj] at hsplit
    exact ⟨by rw [hsplit, Pieces.flatten_split], hsplit⟩
  · intro c hc
    exact hcalls.splitsOff hending (List.mem_append_left _ hc) (hsome c hc)
  · have hflag := hcalls.flag_eq_zero
    rwa [List.dropLast_concat] at hflag

/-- The stream `"a\nb"`, with every allocation successful, is split into `"a\n"` and `"b"`. -/
theorem stream_split_two_pieces :
    ∃ pieces last, readPieces newline .eof (fun _ => ⟨some 0, fun _ => ⟨some 0, true⟩⟩) 4 0 0
        [97, 10, 98] = pieces ++ [last] ∧ pieces.map RutCall.piece = [[97, 10], [98]] := by
  obtain ⟨pieces, last, heq, -, -, hwhole, -⟩ :=
    @stream_split newline .eof [97, 10, 98] (.inl rfl) (by decide) (fun _ => ⟨some 0, fun _ => ⟨some 0, true⟩⟩) 0
  exact ⟨pieces, last, heq, (hwhole rfl fun _ => ⟨rfl, fun _ => rfl⟩).2⟩

end Aesd
