import Aesd.Driver.Invariant
import Aesd.Lib.Segments

set_option relaxedAutoImplicit false
set_option autoImplicit false

/-!
# What one read does

A read looks up the command that holds the byte at the file position and copies from there to
at most the end of that command. On the commands held, oldest first, this is a read at a
position of their concatenation, and the range it copies lies inside the block of the command.

## Main results

* `Aesd.aesdReadRange_spec` — the range a read copies, and that it lies inside a live block.
* `Aesd.aesdRead_spec` — a read with a free lock.
* `Aesd.aesdRead_cases` — a read that returns.
-/

namespace Aesd

variable {s : Driver} {q : List AesdBufferEntry} {extra : List ℕ}

namespace Inv

/-- The lengths of the commands held are the sizes of the entries. -/
lemma map_length_commands (hI : Inv s q extra) :
    s.commands.map List.length = q.map (·.size) := by
  rw [hI.commands_eq, List.map_map]
  exact List.map_congr_left fun e _ => length_entryBytes s.heap e

/-- A position within the commands held, at most ten blocks, is far from the end of the `loff_t`
range. -/
lemma length_flatten_lt (hI : Inv s q extra) : s.commands.flatten.length < 2 ^ 62 := by
  have hsum := hI.sum_size_le
  rw [kmallocMaxSize] at hsum
  rw [List.length_flatten, hI.map_length_commands]
  omega

end Inv

/-- **The range a read copies.** At or beyond the end of the commands there is none; otherwise
it starts at the offset of the position in the block of the command that holds it, and reaches
to the end of the command or of the count.

**Proof sketch.** The lookup is a lookup in the unrolled slots, in which the commands held come
after slots of no size; these shift the index and keep the offset, and the slot at the shifted
index is the entry of the command. -/
lemma aesdReadRange_spec (hI : Inv s q extra) {fPos : ℤ} (h0 : 0 ≤ fPos) (hlt : fPos < 2 ^ 63)
    (count : ℕ) :
    match Segments.locate (s.commands.map List.length) fPos.toNat with
    | none => aesdReadRange s fPos count = none
    | some (i, off) =>
      ∃ p b, (q.getD i .zero).buffptr = some p ∧ s.heap.cell p = some (.data b) ∧
        (q.getD i .zero).size ≤ b.size ∧ off < (q.getD i .zero).size ∧
        aesdReadRange s fPos count = some (some p, off, min count ((q.getD i .zero).size - off)) := by
  have hsizes := hI.map_length_commands
  have hsum := hI.sum_size_le
  have hten := hI.ring.length_le
  have hunroll : s.circBuff.unroll.map (·.size) =
      List.replicate (10 - q.length) 0 ++ q.map (·.size) := by
    rw [hI.map_size_unroll, ← hI.commands_eq, hsizes]
  have htotal : (s.circBuff.unroll.map (·.size)).sum < 2 ^ 64 := by
    rw [hunroll, List.sum_append, List.sum_replicate, smul_eq_mul, Nat.mul_zero]
    rw [kmallocMaxSize] at hsum
    omega
  have hfind := find_eq_locate (show fPos.toNat + 1 < 2 ^ 64 by omega) htotal
  rw [hunroll, Segments.locate_replicate_zero_append] at hfind
  rw [hsizes]
  cases hloc : Segments.locate (q.map (·.size)) fPos.toNat with
  | none =>
    rw [hloc] at hfind
    simp only [aesdReadRange, toSizeT_of_nonneg h0 hlt, hfind, Option.map_none]
  | some r =>
    obtain ⟨i, off⟩ := r
    have hi : i < q.length := by simpa using Segments.index_lt hloc
    have hoff : off < (q.getD i .zero).size := by
      have h := (Segments.locate_eq_some.mp hloc).1
      rwa [List.getD_eq_getElem _ _ (by simpa using hi), List.getElem_map,
        ← List.getD_eq_getElem q .zero hi] at h
    have hslot : s.circBuff.slot ((i + (10 - q.length) + s.circBuff.inOffs) % 10) =
        q.getD i .zero := by
      rw [Nat.add_comm i, hI.ring.slot_inOffs_add hi, List.getD_eq_getElem _ _ hi]
    have hok := hI.held_ok (q.getD i .zero)
      (List.getD_eq_getElem q .zero hi ▸ List.getElem_mem hi)
    have hle := hok.size_le
    obtain ⟨p, b, hp, hcell, hsize, -⟩ := hok
    refine ⟨p, b, hp, hcell, hsize, hoff, ?_⟩
    rw [hloc] at hfind
    simp only [aesdReadRange, toSizeT_of_nonneg h0 hlt, hfind, Option.map_some, hslot, hp]
    rw [kmallocMaxSize] at hle
    rw [show (q.getD i .zero).size + 2 ^ 64 - off = (q.getD i .zero).size - off + 2 ^ 64 by omega,
      sizeT, Nat.add_mod_right, Nat.mod_eq_of_lt (by omega)]

/-- A read with a free lock returns and changes nothing. -/
lemma aesdRead_returns (hlock : s.lock = false) (fPos : ℤ) (count : ℕ) (env : ReadEnv) :
    ∃ reply, aesdRead s fPos count env = some (reply, s) := by
  unfold aesdRead mutexLockInterruptible
  rw [hlock]
  cases env.interrupted with
  | true => exact ⟨_, rfl⟩
  | false => exact ⟨_, by rw [if_neg Bool.false_ne_true, if_neg Bool.false_ne_true, s.unlock_locked hlock]⟩

/-- A read whose lock wait is interrupted. -/
lemma aesdRead_of_interrupted (s : Driver) (fPos : ℤ) (count : ℕ) {env : ReadEnv}
    (hint : env.interrupted = true) :
    aesdRead s fPos count env = some ({ ret := -ERESTARTSYS, fPos }, s) := by
  simp [aesdRead, mutexLockInterruptible, hint]

/-- While the lock is held no read returns. -/
lemma aesdRead_of_lock (hlock : s.lock = true) (fPos : ℤ) (count : ℕ) {env : ReadEnv}
    (hint : env.interrupted = false) : aesdRead s fPos count env = none := by
  simp [aesdRead, mutexLockInterruptible, hlock, hint]

/-- **A read with a free lock** that is not interrupted delivers the bytes at its position, less
those `copy_to_user` leaves uncopied, and advances the position by as many. -/
theorem aesdRead_spec (hI : Inv s q []) (hlock : s.lock = false) {fPos : ℤ} (h0 : 0 ≤ fPos)
    (hlt : fPos < 2 ^ 63) (count : ℕ) {env : ReadEnv} (hint : env.interrupted = false) :
    let data := Segments.readAt s.commands fPos.toNat count
    let n := data.length - min env.uncopied data.length
    aesdRead s fPos count env = some ({ ret := n, fPos := fPos + n, data := data.take n }, s) := by
  intro data n
  have hlocked : Inv s.locked q [] := hI.set_lock true
  have hrange := aesdReadRange_spec hlocked h0 hlt count
  have hcomm : s.locked.commands = s.commands := rfl
  have hrun : aesdRead s fPos count env =
      some (aesdReadLocked s.locked fPos count env, s) := by
    simp [aesdRead, mutexLockInterruptible, hlock, hint, s.unlock_locked hlock]
  rw [hrun, aesdReadLocked]
  rw [hcomm] at hrange
  cases hloc : Segments.locate (s.commands.map List.length) fPos.toNat with
  | none =>
    have hdata : data = [] := by simp only [data, Segments.readAt, hloc]
    have hn : n = 0 := by simp only [n, hdata, List.length_nil, Nat.zero_sub]
    rw [hloc] at hrange
    simp [hrange, hdata, hn]
  | some r =>
    obtain ⟨i, off⟩ := r
    rw [hloc] at hrange
    obtain ⟨p, b, hp, -, -, hoff, hrange⟩ := hrange
    have hi : i < q.length := by
      have h := Segments.index_lt hloc
      rwa [hI.map_length_commands, List.length_map] at h
    have hcmd : s.commands.getD i [] = entryBytes s.heap (q.getD i .zero) := by
      rw [hI.commands_eq, List.getD_eq_getElem _ _ (by simpa using hi), List.getElem_map,
        List.getD_eq_getElem _ _ hi]
    set size := (q.getD i .zero).size with hsz
    have hdata : data = readBytes s.heap (some p) off (min count (size - off)) := by
      have hlen : (List.drop off (readBytes s.heap (some p) 0 size)).length = size - off := by simp
      simp only [data, Segments.readAt, hloc, hcmd, entryBytes, hp]
      rw [List.take_eq_take_min, hlen]
      exact readBytes_drop_take _ _ (by omega)
    -- the position after the read is still within the commands
    have hend : fPos.toNat + data.length ≤ s.commands.flatten.length := by
      have h := (Segments.readAt_prefix s.commands fPos.toNat count).length_le
      rw [List.length_drop] at h
      have h' := Segments.locate_eq_none.not.mp (hloc ▸ Option.some_ne_none _)
      rw [← List.length_flatten] at h'
      simp only [data]
      omega
    have htotal := hI.length_flatten_lt
    have hn : n ≤ data.length := Nat.sub_le _ _
    have hlen : data.length = min count (size - off) := by rw [hdata, length_readBytes]
    have hcopied : min count (size - off) - min env.uncopied (min count (size - off)) = n := by
      rw [← hlen]
    rw [hrange]
    simp only [hcopied]
    rw [signed64_of_lt (by omega) (by omega), signed64_of_lt (by omega) (by omega), hdata,
      readBytes_take _ _ _ (by omega)]
    rfl

/-- **A read that returns**, with everything copied: its lock wait was interrupted, or it delivers
the bytes at its position. -/
lemma aesdRead_cases {s' : Driver} {fPos : ℤ} {count : ℕ} {env : ReadEnv} {reply : Reply}
    (hI : Inv s q []) (h0 : 0 ≤ fPos) (hlt : fPos < 2 ^ 63) (huncopied : env.uncopied = 0)
    (h : aesdRead s fPos count env = some (reply, s')) :
    (env.interrupted = true ∧ reply = { ret := -ERESTARTSYS, fPos }) ∨
    (env.interrupted = false ∧ ∃ data, data = Segments.readAt s.commands fPos.toNat count ∧
      reply = { ret := data.length, fPos := fPos + data.length, data }) := by
  cases hint : env.interrupted with
  | true =>
    rw [aesdRead_of_interrupted _ _ _ hint] at h
    exact .inl ⟨rfl, (Prod.mk.inj (Option.some.inj h)).1.symm⟩
  | false =>
    cases hlock : s.lock with
    | true =>
      rw [aesdRead_of_lock hlock _ _ hint] at h
      exact absurd h (by simp)
    | false =>
      have hspec := aesdRead_spec hI hlock h0 hlt count hint
      simp only [huncopied, Nat.zero_min, Nat.sub_zero, List.take_length] at hspec
      rw [hspec] at h
      exact .inr ⟨rfl, _, rfl, (Prod.mk.inj (Option.some.inj h)).1.symm⟩

end Aesd
