import Aesd.Lib.LocalArray
import Aesd.Server.Interrupts
import Aesd.Server.StreamSplit

set_option relaxedAutoImplicit false
set_option autoImplicit false

/-!
# `readLine`

`readLine` of `server/include/utils.c` reads a line into a buffer of the caller, a byte at a time.
What does not fit is read and dropped. Unlike `read_until_term` it goes on with its loop after an
interrupted read, and tells its caller nothing about how the line ended.

Called again and again on one buffer, it cuts the results of the reads after each newline, each end
of file and each error, and returns every line up to the size of the buffer.

## Main definitions

* `Aesd.LineVars`, `Aesd.LineReturn`, `Aesd.readLine` — the call.
* `Aesd.readLines` — calls on one buffer until there are no more results.
* `Aesd.cutLines` — the lines that the results of the reads make up.
* `Aesd.ReturnsLine` — a call that has returned a line.

## Main results

* `Aesd.readLineLoop_eq` — a call returns the next line.
* `Aesd.readLine_lines` — the calls return the lines.
* `Aesd.readLine_agrees` — they are the lines of `read_until_term`, cut to the size of the buffer.
-/

namespace Aesd

/-! ## The call -/

/-- The variables of `readLine` inside its loop: the array at `buffer`, the index in it that `buf`
points to, and `totRead`. -/
structure LineVars where
  buffer : LocalArray Byte
  buf : ℕ
  totRead : ℕ

/-- What a call gives back: the value it returns, the value it has stored in `errno`, the caller's
buffer, and the results of the reads it has not made. -/
structure LineReturn where
  value : ℤ
  errno : Option ℤ
  buffer : Option (LocalArray Byte)
  rest : List ReadResult

namespace LineVars

/-- `totRead++; *buf++ = ch`, unless there is only room for the NUL. -/
def put (n : ℕ) (ch : Byte) (v : LineVars) : LineVars :=
  if v.totRead < n - 1 then ⟨v.buffer.store v.buf ch, v.buf + 1, sizeT (v.totRead + 1)⟩ else v

/-- After the loop: `*buf = '\0'` and the return of `totRead`. -/
def finish (v : LineVars) (rest : List ReadResult) : LineReturn :=
  ⟨signed64 v.totRead, none, some (v.buffer.store v.buf 0), rest⟩

end LineVars

/-- The loop of `readLine` over the results of its reads; `none` while it waits for the next one. -/
def readLineLoop (n : ℕ) : List ReadResult → LineVars → Option LineReturn
  | [], _ => none
  | .eintr :: rs, v => readLineLoop n rs v
  | .error :: rs, v => some ⟨-1, none, some v.buffer, rs⟩
  | .eof :: rs, v => some (if v.totRead = 0 then ⟨0, none, some v.buffer, rs⟩ else v.finish rs)
  | .byte ch :: rs, v =>
    if ch = newline then some ((v.put n ch).finish rs) else readLineLoop n rs (v.put n ch)

/-- `readLine(fd, buffer, n)`, where `buffer` is `none` for `NULL`. -/
def readLine (buffer : Option (LocalArray Byte)) (n : ℕ) (rs : List ReadResult) :
    Option LineReturn :=
  match buffer with
  | none => some ⟨-1, some EINVAL, none, rs⟩
  | some b =>
    if n ≤ 0 then some ⟨-1, some EINVAL, some b, rs⟩ else readLineLoop n rs ⟨b, 0, 0⟩

/-- Calls with the same buffer until there are no more results, with the number of calls left. -/
def readLines (n : ℕ) : ℕ → Option (LocalArray Byte) → List ReadResult → List LineReturn
  | 0, _, _ => []
  | fuel + 1, buffer, rs =>
    match readLine buffer n rs with
    | none => []
    | some ret => ret :: readLines n fuel ret.buffer ret.rest

/-- What the caller finds in the buffer: as many characters as the value says. -/
def LineReturn.text (ret : LineReturn) : List Byte :=
  match ret.buffer with
  | none => []
  | some b => (List.range ret.value.toNat).map b.cell

/-! ## The lines -/

/-- How a line ends. -/
inductive LineEnd where
  | newline
  | eof
  | error
deriving DecidableEq

/-- The bytes of a line before its end, and its end. -/
structure CutLine where
  body : List Byte
  ending : LineEnd

/-- The lines that the results of the reads make up, if these bytes of the first one have been read
before. A line that has not ended is left out. -/
def cutLines : List Byte → List ReadResult → List CutLine
  | _, [] => []
  | front, .eintr :: rs => cutLines front rs
  | front, .error :: rs => ⟨front, .error⟩ :: cutLines [] rs
  | front, .eof :: rs => ⟨front, .eof⟩ :: cutLines [] rs
  | front, .byte ch :: rs =>
    if ch = newline then ⟨front, .newline⟩ :: cutLines [] rs else cutLines (front ++ [ch]) rs

namespace CutLine

/-- The bytes of a line, with its newline. -/
def chars (l : CutLine) : List Byte :=
  match l.ending with
  | .newline => l.body ++ [newline]
  | _ => l.body

/-- The part of a line that a buffer of `n` bytes holds in front of the NUL. -/
def text (n : ℕ) (l : CutLine) : List Byte := l.chars.take (n - 1)

/-- A NUL is stored after the text: always after a newline, at the end of the file only if the text
is not empty, and never after an error. -/
def nul (n : ℕ) (l : CutLine) : List Byte :=
  match l.ending with
  | .newline => [0]
  | .eof => if l.text n = [] then [] else [0]
  | .error => []

/-- The text and the NUL fit the buffer. -/
lemma length_le {n : ℕ} (hn : 0 < n) (l : CutLine) : (l.text n ++ l.nul n).length ≤ n := by
  have htext : (l.text n).length ≤ n - 1 := List.length_take_le _ _
  have hnul : (l.nul n).length ≤ 1 := by
    rw [nul]
    split
    · exact le_rfl
    · split_ifs <;> simp
    · exact Nat.zero_le 1
  rw [List.length_append]
  omega

end CutLine

/-- A call has returned the line: its length or `-1`, its text at the start of the buffer, with the
NUL if there is one, and no store outside the buffer so far. -/
structure ReturnsLine (n : ℕ) (l : CutLine) (ret : LineReturn) : Prop where
  value_eq : ret.value = if l.ending = .error then -1 else ((l.text n).length : ℤ)
  buffer_eq : ∃ b, ret.buffer = some b ∧ b.outside = [] ∧
    (List.range (l.text n ++ l.nul n).length).map b.cell = l.text n ++ l.nul n

variable {n : ℕ} {b : LocalArray Byte} {front : List Byte} {rs : List ReadResult}

/-! ## One call -/

/-- The variables after these bytes of the line have been read. -/
def LineVars.after (n : ℕ) (b : LocalArray Byte) (front : List Byte) : LineVars :=
  ⟨b.storeFrom 0 (front.take (n - 1)), (front.take (n - 1)).length, (front.take (n - 1)).length⟩

namespace LineVars

/-- One more byte is stored, or dropped if the buffer is full. -/
lemma put_after (hn : n ≤ 2 ^ 63) (ch : Byte) :
    (after n b front).put n ch = after n b (front ++ [ch]) := by
  have hlen : (front.take (n - 1)).length = min (n - 1) front.length := List.length_take
  rcases Nat.lt_or_ge front.length (n - 1) with hlt | hge
  · have hfront : front.take (n - 1) = front := List.take_of_length_le hlt.le
    have hmore : (front ++ [ch]).take (n - 1) = front ++ [ch] :=
      List.take_of_length_le (by rw [List.length_append, List.length_singleton]; omega)
    have hroom : (after n b front).totRead < n - 1 := by
      change (front.take (n - 1)).length < n - 1
      omega
    have hsizeT : sizeT (front.length + 1) = front.length + 1 := sizeT_of_lt (by omega)
    rw [put, if_pos hroom, after, after, hmore, hfront, LocalArray.storeFrom_concat, Nat.zero_add,
      List.length_append, List.length_singleton, hsizeT]
  · have hmore : (front ++ [ch]).take (n - 1) = front.take (n - 1) :=
      List.take_append_of_le_length hge
    have hroom : ¬(after n b front).totRead < n - 1 := by
      change ¬(front.take (n - 1)).length < n - 1
      omega
    rw [put, if_neg hroom, after, after, hmore]

/-- The NUL is stored after the bytes, and their number is returned. -/
lemma finish_after (hpos : 0 < n) (hn : n ≤ 2 ^ 63) (rest : List ReadResult) :
    (after n b front).finish rest =
      ⟨((front.take (n - 1)).length : ℤ), none,
        some (b.storeFrom 0 (front.take (n - 1) ++ [0])), rest⟩ := by
  have hlen : (front.take (n - 1)).length ≤ n - 1 := List.length_take_le _ _
  have hsigned : signed64 ((front.take (n - 1)).length : ℤ) = (front.take (n - 1)).length :=
    signed64_of_lt (by omega) (by omega)
  rw [finish, after, LocalArray.storeFrom_concat, Nat.zero_add, hsigned]

end LineVars

/-- What a call that reads this line returns, with these results left. -/
def CutLine.ret (n : ℕ) (b : LocalArray Byte) (l : CutLine) (rest : List ReadResult) : LineReturn :=
  ⟨if l.ending = .error then -1 else ((l.text n).length : ℤ), none,
    some (b.storeFrom 0 (l.text n ++ l.nul n)), rest⟩

/-- **A call returns the next line**, or waits for more results if there is none.

**Proof sketch.** Induction on the results. A byte takes the variables after `front` to the ones
after `front ++ [ch]`, and an interrupted read leaves them alone. -/
lemma readLineLoop_eq (hpos : 0 < n) (hn : n ≤ 2 ^ 63) :
    (readLineLoop n rs (.after n b front) = none ∧ cutLines front rs = []) ∨
      ∃ l rest, readLineLoop n rs (.after n b front) = some (l.ret n b rest) ∧
        cutLines front rs = l :: cutLines [] rest ∧ rest.length < rs.length := by
  induction rs generalizing front with
  | nil => exact .inl ⟨rfl, rfl⟩
  | cons r rs ih =>
    cases r with
    | eintr =>
      obtain ⟨hnone, hcut⟩ | ⟨l, rest, hret, hcut, hlen⟩ := @ih front
      · exact .inl ⟨hnone, hcut⟩
      · exact .inr ⟨l, rest, hret, hcut, hlen.trans (Nat.lt_succ_self _)⟩
    | error =>
      refine .inr ⟨⟨front, .error⟩, rs, ?_, rfl, Nat.lt_succ_self _⟩
      simp [readLineLoop, CutLine.ret, LineVars.after, CutLine.text, CutLine.chars, CutLine.nul]
    | eof =>
      refine .inr ⟨⟨front, .eof⟩, rs, ?_, rfl, Nat.lt_succ_self _⟩
      have htot : (LineVars.after n b front).totRead = 0 ↔ front.take (n - 1) = [] :=
        List.length_eq_zero_iff
      rw [readLineLoop, LineVars.finish_after hpos hn]
      by_cases hnil : front.take (n - 1) = []
      · rw [if_pos (htot.mpr hnil)]
        simp [CutLine.ret, LineVars.after, CutLine.text, CutLine.chars, CutLine.nul, hnil]
      · rw [if_neg (mt htot.mp hnil)]
        simp [CutLine.ret, CutLine.text, CutLine.chars, CutLine.nul, hnil]
    | byte ch =>
      rw [readLineLoop, cutLines, LineVars.put_after hn]
      split_ifs with hch
      · refine .inr ⟨⟨front, .newline⟩, rs, ?_, rfl, Nat.lt_succ_self _⟩
        rw [LineVars.finish_after hpos hn, hch]
        rfl
      · obtain ⟨hnone, hcut⟩ | ⟨l, rest, hret, hcut, hlen⟩ := @ih (front ++ [ch])
        · exact .inl ⟨hnone, hcut⟩
        · exact .inr ⟨l, rest, hret, hcut, hlen.trans (Nat.lt_succ_self _)⟩

/-- Storing a line in a buffer with room for it. -/
lemma CutLine.returnsLine (hpos : 0 < n) (hsize : b.size = n) (hb : b.InBounds) (l : CutLine)
    (rest : List ReadResult) : ReturnsLine n l (l.ret n b rest) := by
  have hlen := l.length_le hpos
  refine ⟨rfl, _, rfl, ?_, ?_⟩
  · rw [LocalArray.outside_eq_nil]
    exact hb.storeFrom (by omega)
  · rw [List.range_eq_range', LocalArray.map_cell_storeFrom]

/-! ## The calls -/

/-- The calls on a buffer that nothing was stored outside of. -/
lemma forall₂_readLines (hpos : 0 < n) (hn : n ≤ 2 ^ 63) (hsize : b.size = n) (hb : b.InBounds)
    {fuel : ℕ} (hfuel : rs.length ≤ fuel) :
    List.Forall₂ (ReturnsLine n) (cutLines [] rs) (readLines n fuel (some b) rs) := by
  induction fuel generalizing b rs with
  | zero =>
    obtain rfl := List.length_eq_zero_iff.mp (Nat.le_zero.mp hfuel)
    exact .nil
  | succ fuel ih =>
    have hcall : readLine (some b) n rs = readLineLoop n rs (.after n b []) := by
      have htake : ([] : List Byte).take (n - 1) = [] := List.take_nil
      rw [readLine, if_neg (by omega), LineVars.after, htake]
      rfl
    rw [readLines, hcall]
    obtain ⟨hnone, hcut⟩ | ⟨l, rest, hret, hcut, hlen⟩ :=
      @readLineLoop_eq n b [] rs hpos hn
    · rw [hnone, hcut]
      exact .nil
    · rw [hret, hcut]
      have hroom := l.length_le hpos
      refine .cons (l.returnsLine hpos hsize hb rest) (ih ?_ (hb.storeFrom ?_) ?_)
      · rw [LocalArray.size_storeFrom, hsize]
      · omega
      · exact Nat.le_of_lt_succ (hlen.trans_le hfuel)

/-- **The calls return the lines.** For every buffer size up to the largest object there can be,
every memory, and every sequence of results of the reads (bytes, ends of file, interruptions and
errors in any order): the calls on one buffer, until the results are used up, return the lines that
the results make up, one each and in order; each finds its text, with the newline if there was one
and it fits, at the start of the buffer, followed by a NUL unless the call failed or returned `0` at
the end of the file; and nothing is ever stored outside the buffer.

**Proof sketch.** Induction on the results left, as a call that returns has made at least one read.
The buffer that the next call gets has its size and has been stored in within its bounds. -/
theorem readLine_lines (hpos : 0 < n) (hn : n ≤ 2 ^ 63) (memory : ℕ → Byte)
    (rs : List ReadResult) :
    List.Forall₂ (ReturnsLine n) (cutLines [] rs)
      (readLines n rs.length (some (.declare n memory)) rs) := by
  exact forall₂_readLines hpos hn rfl (by simp [LocalArray.InBounds, LocalArray.declare]) le_rfl

/-- With room for three characters, of `"ab\n"` and `"abcdef\n"`, the second one interrupted, the
calls return `"ab\n"` and `"abc"`. -/
theorem readLine_lines_two :
    List.Forall₂ (ReturnsLine 4) [⟨[97, 98], .newline⟩, ⟨[97, 98, 99, 100, 101, 102], .newline⟩]
      (readLines 4 11 (some (.declare 4 fun _ => 0))
        ([.byte 97, .byte 98, .byte 10, .byte 97, .eintr, .byte 98, .byte 99, .byte 100, .byte 101,
          .byte 102, .byte 10])) :=
  readLine_lines (n := 4) (by decide) (by decide) _ [.byte 97, .byte 98, .byte 10, .byte 97, .eintr,
    .byte 98, .byte 99, .byte 100, .byte 101, .byte 102, .byte 10]

/-! ## The lines of `read_until_term` -/

/-- Interrupted reads make no difference to the lines. -/
lemma cutLines_withoutInterrupts (front : List Byte) (rs : List ReadResult) :
    cutLines front (withoutInterrupts rs) = cutLines front rs := by
  induction rs generalizing front with
  | nil => rfl
  | cons r rs ih =>
    cases r with
    | eintr => exact ih front
    | byte ch =>
      change cutLines front (.byte ch :: withoutInterrupts rs) = _
      rw [cutLines, cutLines, ih, ih]
    | eof => exact congrArg (CutLine.mk front .eof :: ·) (ih [])
    | error => exact congrArg (CutLine.mk front .error :: ·) (ih [])

/-- The lines of a stream that ends are its pieces, and one without characters if the stream ends
with a newline. -/
lemma filter_chars_cutLines (hfront : newline ∉ front) (bytes : List Byte) :
    ((cutLines front (results bytes .eof)).map CutLine.chars).filter (· ≠ []) =
      Pieces.split newline (front ++ bytes) := by
  induction bytes generalizing front with
  | nil =>
    rw [List.append_nil]
    change [front].filter (· ≠ []) = _
    by_cases hnil : front = []
    · subst hnil
      rfl
    · rw [Pieces.split_of_not_mem hfront hnil]
      simp [hnil]
  | cons ch bytes ih =>
    change ((cutLines front (.byte ch :: results bytes .eof)).map CutLine.chars).filter _ = _
    rw [cutLines]
    split_ifs with hch
    · have hrest := ih (List.not_mem_nil (a := newline))
      rw [List.nil_append] at hrest
      rw [hch, Pieces.split_append hfront, ← hrest]
      simp [CutLine.chars]
    · have hmore : newline ∉ front ++ [ch] := by simp [hfront, Ne.symm hch]
      rw [ih hmore, List.append_assoc, List.singleton_append]

/-- No line of such a stream ends with an error. -/
lemma ending_ne_error {l : CutLine} {bytes : List Byte}
    (hl : l ∈ cutLines front (results bytes .eof)) : l.ending ≠ .error := by
  induction bytes generalizing front with
  | nil =>
    rw [List.mem_singleton.mp hl]
    exact fun h => by simp at h
  | cons ch bytes ih =>
    change l ∈ cutLines front (.byte ch :: results bytes .eof) at hl
    rw [cutLines] at hl
    split_ifs at hl with hch
    · rcases List.mem_cons.mp hl with rfl | hl
      · exact fun h => by simp at h
      · exact ih hl
    · exact ih hl

/-- The caller finds the text of the line. -/
lemma ReturnsLine.text_eq {l : CutLine} {ret : LineReturn} (h : ReturnsLine n l ret)
    (hend : l.ending ≠ .error) : ret.text = l.text n := by
  obtain ⟨b, hb, -, hcells⟩ := h.buffer_eq
  have hvalue : ret.value.toNat = (l.text n).length := by
    rw [h.value_eq, if_neg hend, Int.toNat_natCast]
  have htake := congrArg (List.take (l.text n).length) hcells
  rw [← List.map_take, List.take_range, List.take_left, List.length_append,
    Nat.min_eq_left (Nat.le_add_right _ _)] at htake
  rw [LineReturn.text, hb]
  change (List.range ret.value.toNat).map b.cell = _
  rw [hvalue, htake]

/-- The texts of the calls that return more than `0` are the characters of the lines that have any,
as far as they fit. -/
lemma map_text_readLines (hn : 2 ≤ n) {ls : List CutLine} {rets : List LineReturn}
    (h : List.Forall₂ (ReturnsLine n) ls rets) (hend : ∀ l ∈ ls, l.ending ≠ .error) :
    (rets.filter (0 < ·.value)).map LineReturn.text =
      ((ls.map CutLine.chars).filter (· ≠ [])).map (·.take (n - 1)) := by
  induction h with
  | nil => rfl
  | @cons l ret ls rets hret _ ih =>
    have hl := hend l List.mem_cons_self
    have hrest := ih fun k hk => hend k (List.mem_cons_of_mem _ hk)
    have hvalue : ret.value = (l.text n).length := by rw [hret.value_eq, if_neg hl]
    rw [List.map_cons, List.filter_cons, List.filter_cons]
    by_cases hnil : l.chars = []
    · have hzero : (l.text n).length = 0 := by rw [CutLine.text, hnil, List.take_nil]; rfl
      rw [if_neg (by simp [hvalue, hzero]), if_neg (by simp [hnil]), hrest]
    · have hchars := List.length_pos_iff.mpr hnil
      have hpos : 0 < (l.text n).length := by
        rw [CutLine.text, List.length_take]
        omega
      have hvalue_pos : 0 < ret.value := by rw [hvalue]; exact_mod_cast hpos
      rw [if_pos (decide_eq_true hvalue_pos), if_pos (decide_eq_true hnil), List.map_cons,
        List.map_cons, hret.text_eq hl, hrest]
      rfl

/-- **`readLine` agrees with `read_until_term`.** For every stream that ends with the end of the
file and every buffer of at least two bytes: the lines for which `readLine` returns more than `0`,
wherever its reads are interrupted, are those that `read_until_term` returns for the newline without
interruptions, each cut to the size of the buffer less one.

**Proof sketch.** Both are the pieces of the stream, by `forall₂_readLines` and
`PieceCalls.split_eq`. -/
theorem readLine_agrees (hn : 2 ≤ n) (hn' : n ≤ 2 ^ 63) (memory : ℕ → Byte) {bytes : List Byte}
    (hrs : withoutInterrupts rs = results bytes .eof) {envs : ℕ → CallEnv}
    (hsucceed : ∀ k, (envs k).Succeeds) (flag : ℤ)
    (hlen : ∀ p ∈ Pieces.split newline bytes, p.length < 2 ^ 30 - 1) :
    ((readLines n rs.length (some (.declare n memory)) rs).filter (0 < ·.value)).map
        LineReturn.text =
      ((readPieces newline .eof envs (bytes.length + 1) 0 flag bytes).filter
        (·.ret.line.isSome)).map (·.piece.take (n - 1)) := by
  have hlines : List.Forall₂ (ReturnsLine n) (cutLines [] rs)
      (readLines n rs.length (some (.declare n memory)) rs) :=
    forall₂_readLines (by omega) hn' rfl (by simp [LocalArray.InBounds, LocalArray.declare]) le_rfl
  rw [← cutLines_withoutInterrupts, hrs] at hlines
  have hsplit := filter_chars_cutLines (List.not_mem_nil (a := newline)) bytes
  rw [List.nil_append] at hsplit
  rw [map_text_readLines hn hlines fun l hl => ending_ne_error hl, hsplit]
  have hcalls : PieceCalls newline .eof envs bytes
      (readPieces newline .eof envs (bytes.length + 1) 0 flag bytes) :=
    pieceCalls_readPieces (.inl rfl) (Nat.lt_succ_self bytes.length) 0 flag
  have hpieces := hcalls.split_eq hsucceed hlen
  obtain ⟨pieces, last, heq, hlast, hsome⟩ := hcalls.exists_last
  have hnull : last.piece = [] := by rw [RutCall.piece, hlast]
  rw [heq, List.map_append, List.map_singleton, hnull, List.append_left_inj] at hpieces
  have hfilter : (pieces ++ [last]).filter (·.ret.line.isSome) = pieces := by
    rw [List.filter_append, List.filter_eq_self.mpr hsome]
    simp [hlast]
  rw [heq, hfilter, ← hpieces, List.map_map]
  rfl

/-- The stream `"abcd\nx"` with room for three characters: both find `"abc"` and `"x"`. -/
theorem readLine_agrees_two :
    ((readLines 4 9 (some (.declare 4 fun _ => 0)) [.byte 97, .byte 98, .eintr, .byte 99, .byte 100,
        .byte 10, .byte 120, .eintr, .eof]).filter (0 < ·.value)).map LineReturn.text =
      ((readPieces newline .eof (fun _ => ⟨some 0, fun _ => ⟨some 0, true⟩⟩) 7 0 0
        [97, 98, 99, 100, 10, 120]).filter (·.ret.line.isSome)).map (·.piece.take 3) :=
  @readLine_agrees 4 [.byte 97, .byte 98, .eintr, .byte 99, .byte 100, .byte 10, .byte 120, .eintr, .eof]
    (by decide) (by decide) _ [97, 98, 99, 100, 10, 120] (by decide) _ (fun _ => ⟨rfl, fun _ => rfl⟩)
    0 (by decide)

end Aesd
