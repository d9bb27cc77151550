import Aesd.Driver.Invariant

set_option relaxedAutoImplicit false
set_option autoImplicit false

/-!
# What one write does

A write that gets its allocations accumulates the pending bytes and the copied bytes in a new
block. The newline scan then sees these bytes followed by zeros for the bytes that were not copied
and by whatever the memory after the block holds, and decides whether they are committed or kept
pending. If the block is empty the scan faults, and the lock stays held. A write that does not get
its allocations, or whose lock wait is interrupted, changes nothing.

## Main definitions

* `Aesd.accumulated` — the bytes a write accumulates.
* `Aesd.Allocates` — the lock wait and both allocations of a write succeed.
* `Aesd.Stored`, `Aesd.Faulted` — the effect of a write that gets its allocations.

## Main results

* `Aesd.aesdWriteWith_of_found`, `Aesd.aesdWriteLocked_of_fault`,
  `Aesd.aesdWriteWith_of_not_allocates` — a write with a free lock, for any newline scan.
-/

namespace Aesd

variable {s : Driver} {q : List AesdBufferEntry} {extra : List ℕ}

/-! ## Stages of a write -/

/-- Releasing an object of the call keeps the invariant. -/
lemma Inv.free {l : ℕ} (hI : Inv s q (l :: extra)) :
    Inv { s with heap := s.heap.free (some l) } q extra ∧
      ∀ p ∈ s.owned q, (s.heap.free (some l)).cell p = s.heap.cell p := by
  obtain ⟨ho, hb⟩ := hI.owns.free
  have hc : ∀ p ∈ s.owned q, (s.heap.free (some l)).cell p = s.heap.cell p := fun p hp =>
    hI.owns.cell_free_ptr (o := some l) (List.mem_append_right _ hp)
  exact ⟨hI.frame hc ho (hb.trans hI.badFrees_eq), hc⟩

/-- Storing to a block of the call keeps the invariant. -/
lemma Inv.store {p : ℕ} (hI : Inv s q (p :: extra)) (off : ℕ) (bs : List Byte) :
    Inv { s with heap := store s.heap p off bs } q (p :: extra) ∧
      ∀ a ∈ s.owned q, (Aesd.store s.heap p off bs).cell a = s.heap.cell a := by
  have hc : ∀ a ∈ s.owned q, (Aesd.store s.heap p off bs).cell a = s.heap.cell a := by
    intro a ha
    apply cell_store_of_ne _ _
    rintro rfl
    exact (List.nodup_cons.mp hI.owns.nodup).1 (List.mem_append_right _ ha)
  exact ⟨hI.frame hc (hI.owns.modify p _) hI.badFrees_eq, hc⟩

/-- Moving the pending bytes into the block at `p` puts them in front of what the block holds,
and leaves no pending entry.

**Proof sketch.** Without a pending block there are no pending bytes and nothing happens.
Otherwise the bytes are stored at the start of the block and the old block, which the device
owned, is released; its entry is zeroed, so nothing refers to it any more. -/
lemma movePending_spec {p : ℕ} {b : Block} (hI : Inv s q (p :: extra))
    (hp : s.heap.cell p = some (.data b)) :
    ∃ h b', movePending s p = (s.pending.length, { s with heap := h, gEntVal := .zero }) ∧
      Inv { s with heap := h, gEntVal := .zero } q (p :: extra) ∧
      q.map (entryBytes h) = q.map (entryBytes s.heap) ∧
      h.cell p = some (.data b') ∧ b'.size = b.size ∧
      (∀ i, b'.bytes i = s.pending.getD i (b.bytes i)) ∧
      ∀ a ∈ extra, h.cell a = s.heap.cell a := by
  rcases hI.pending_ok with hz | ⟨g, b₀, hg, hcell, -, -⟩
  · have hpend : s.pending = [] := by rw [Driver.pending, hz, entryBytes_zero]
    refine ⟨s.heap, b, ?_, ?_, rfl, hp, rfl, ?_, fun a _ => rfl⟩
    · rw [movePending, if_pos (by rw [hz]; rfl), hpend]
      exact congrArg (Prod.mk 0) (by rw [← hz])
    · rwa [← hz]
    · intro i
      rw [hpend]
      rfl
  · obtain ⟨hI', hc⟩ := hI.store 0 s.pending
    set h := Aesd.store s.heap p 0 s.pending with hh
    have hown : Inv { s with heap := h } q (p :: extra) := hI'
    -- list the pending block first, so that it can be released
    have hperm : h.Owns (g :: (p :: extra ++ (s.gEnt.toList ++ ptrs q))) := by
      apply hown.owns.perm
      simp only [Driver.owned, hg, Option.toList_some, List.singleton_append]
      rw [← List.append_assoc, ← List.append_assoc]
      exact List.perm_middle
    obtain ⟨ho, hb⟩ := hperm.free
    have hkeep : ∀ a ∈ p :: extra ++ (s.gEnt.toList ++ ptrs q),
        (h.free (some g)).cell a = h.cell a := fun a ha => hperm.cell_free_ptr (o := some g) ha
    have hpcell := cell_store_self 0 s.pending hp
    rw [← hh] at hpcell
    have hheld : ∀ e ∈ q, ∀ a, e.buffptr = some a → (h.free (some g)).cell a = s.heap.cell a := by
      intro e he a ha
      refine (hkeep a (by simp [mem_ptrs he ha])).trans (hc a ?_)
      simp [Driver.owned, mem_ptrs he ha]
    refine ⟨h.free (some g), _, ?_, ?_, ?_, (hkeep p (by simp)).trans hpcell, rfl, ?_, ?_⟩
    · rw [movePending, if_neg (by rw [hg]; simp), hg]
      simp only [Driver.pending, entryBytes, hg, length_readBytes] at hh ⊢
      rw [hh]
    · obtain ⟨g', hg', hcell'⟩ := hown.gEnt_ok
      refine ⟨hI.ring, fun e he => ((hI.held_ok e he).congr (hheld e he)).1, .inl rfl,
        ⟨g', hg', ?_⟩, ?_, hb.trans hown.badFrees_eq⟩
      · exact (hkeep g' (by simp [show s.gEnt = some g' from hg'])).trans hcell'
      · simpa [Driver.owned, AesdBufferEntry.zero] using ho
    · exact List.map_congr_left fun e he => ((hI.held_ok e he).congr (hheld e he)).2
    · intro i
      simp only [Nat.zero_le, true_and, Nat.zero_add, Nat.sub_zero]
      split_ifs with hi
      · rw [List.getD_eq_getElem _ _ hi, List.getD_eq_getElem _ _ hi]
      · rw [List.getD_eq_default _ _ (by omega)]
    · intro a ha
      refine (hkeep a (by simp [ha])).trans (cell_store_of_ne _ _ ?_)
      rintro rfl
      exact (List.nodup_cons.mp hI.owns.nodup).1 (List.mem_append_left _ ha)

/-- Committing an entry of the call pushes it to the commands held and releases the command it
evicts.

**Proof sketch.** The buffer simulates the push (`Represents.addEntry`). A push loses nothing,
so the pointers before it, with the new one, are the evicted pointer followed by the pointers
after it: the evicted block can be released, and no entry still held refers to it. -/
lemma commitEntry_spec {p : ℕ} {e : AesdBufferEntry} (hI : Inv s q (p :: extra))
    (hz : s.gEntVal = .zero) (hp : e.buffptr = some p) (he : EntryOk s.heap e) :
    Inv (commitEntry s e) (BoundedQueue.push 10 q e).2 extra ∧
      (BoundedQueue.push 10 q e).2.map (entryBytes (commitEntry s e).heap) =
        (BoundedQueue.push 10 q e).2.map (entryBytes s.heap) ∧
      ∀ a ∈ extra, (commitEntry s e).heap.cell a = s.heap.cell a := by
  obtain ⟨hring, hret⟩ := hI.ring.addEntry e
  have hsplit := BoundedQueue.push_toList_append 10 q e
  set evicted := (BoundedQueue.push 10 q e).1
  set q' := (BoundedQueue.push 10 q e).2
  have hptrs : (aesdCircularBufferAddEntry s.circBuff e).1.toList ++ ptrs q' = ptrs q ++ [p] := by
    have h := congrArg ptrs hsplit
    simp only [ptrs, List.filterMap_append] at h ⊢
    rw [hret, show [p] = [e].filterMap (·.buffptr) by simp [hp], ← h]
    congr 1
    cases evicted with
    | none => rfl
    | some o => cases ho : o.buffptr <;> simp [ho]
  have hperm : s.heap.Owns ((aesdCircularBufferAddEntry s.circBuff e).1.toList ++
      (extra ++ (s.gEnt.toList ++ ptrs q'))) := by
    apply hI.owns.perm
    have hstart : List.Perm (p :: extra ++ s.owned q)
        (extra ++ (s.gEnt.toList ++ (ptrs q ++ [p]))) := by
      simp only [Driver.owned, hz, AesdBufferEntry.zero, Option.toList_none, List.nil_append]
      rw [← List.append_assoc, ← List.append_assoc, ← List.append_assoc]
      exact (List.perm_append_singleton p _).symm
    apply hstart.trans
    rw [← hptrs, ← List.append_assoc, ← List.append_assoc, ← List.append_assoc, ← List.append_assoc]
    apply List.Perm.append_right _
    rw [List.append_assoc (Option.toList _)]
    exact List.perm_append_comm
  obtain ⟨ho, hb⟩ := hperm.free_ptr
  have hkeep : ∀ a ∈ extra ++ (s.gEnt.toList ++ ptrs q'),
      (commitEntry s e).heap.cell a = s.heap.cell a := fun a ha => hperm.cell_free_ptr ha
  have hok : ∀ e' ∈ q', EntryOk s.heap e' := by
    intro e' he'
    have hmem : e' ∈ q ++ [e] := hsplit ▸ List.mem_append_right _ he'
    rcases List.mem_append.mp hmem with hm | hm
    · exact hI.held_ok e' hm
    · rwa [List.mem_singleton.mp hm]
  have hcell : ∀ e' ∈ q', ∀ a, e'.buffptr = some a →
      (commitEntry s e).heap.cell a = s.heap.cell a := fun e' he' a ha =>
    hkeep a (by simp [mem_ptrs he' ha])
  obtain ⟨g, hg, hgcell⟩ := hI.gEnt_ok
  refine ⟨⟨hring, fun e' he' => ((hok e' he').congr (hcell e' he')).1, .inl hz,
    ⟨g, hg, (hkeep g (by simp [hg])).trans hgcell⟩, ?_, hb.trans hI.badFrees_eq⟩,
    List.map_congr_left fun e' he' => ((hok e' he').congr (hcell e' he')).2,
    fun a ha => hkeep a (List.mem_append_left _ ha)⟩
  simpa [Driver.owned, commitEntry, hz, AesdBufferEntry.zero] using ho

/-- Keeping an entry of the call pending. -/
lemma keepEntry_spec {p : ℕ} {e : AesdBufferEntry} (hI : Inv s q (p :: extra))
    (hz : s.gEntVal = .zero) (hp : e.buffptr = some p) (he : EntryOk s.heap e) :
    Inv (keepEntry s e) q extra := by
  refine ⟨hI.ring, hI.held_ok, .inr he, hI.gEnt_ok, hI.owns.perm ?_, hI.badFrees_eq⟩
  simp only [Driver.owned, keepEntry, hz, hp, AesdBufferEntry.zero, Option.toList_none,
    Option.toList_some, List.nil_append, List.singleton_append]
  rw [← List.append_assoc, ← List.append_assoc]
  exact List.perm_middle.symm

/-! ## The whole write -/

/-- The bytes a write accumulates: those pending, followed by those copied from the user. -/
def accumulated (s : Driver) (buf : UserBuf) (env : WriteEnv) : List Byte :=
  s.pending ++ buf.bytes.take (env.copied buf)

/-- What the newline scan sees from the start of the block: the pending bytes, what
`copy_from_user` stored, and then whatever the memory holds. -/
def scannedBytes (s : Driver) (buf : UserBuf) (env : WriteEnv) (i : ℕ) : Byte :=
  (s.pending ++ env.fromUser buf).getD i (env.memory i)

/-- The block that the newline scan runs over. -/
def scannedBlock (s : Driver) (buf : UserBuf) (env : WriteEnv) : Block :=
  ⟨buf.bytes.length + s.pending.length, scannedBytes s buf env⟩

/-- What a write accumulates depends on the pending bytes only. -/
lemma accumulated_congr {s' : Driver} (h : s'.pending = s.pending) (buf : UserBuf)
    (env : WriteEnv) : accumulated s' buf env = accumulated s buf env := by
  rw [accumulated, accumulated, h]

/-- So does the block that is scanned. -/
lemma scannedBlock_congr {s' : Driver} (h : s'.pending = s.pending) (buf : UserBuf)
    (env : WriteEnv) : scannedBlock s' buf env = scannedBlock s buf env := by
  simp only [scannedBlock, h, Block.mk.injEq, true_and]
  exact funext fun i => by rw [scannedBytes, scannedBytes, h]

/-- The lock wait and both allocations of a write succeed. -/
structure Allocates (s : Driver) (buf : UserBuf) (env : WriteEnv) : Prop where
  not_interrupted : env.interrupted = false
  entry : ∃ l, env.entryPtr = some l ∧ s.heap.cell l = none
  data : ∃ p, env.dataPtr = some p ∧ s.heap.cell p = none
  ne : env.entryPtr ≠ env.dataPtr
  size_le : buf.bytes.length + s.pending.length ≤ kmallocMaxSize

instance (s : Driver) (buf : UserBuf) (env : WriteEnv) : Decidable (Allocates s buf env) :=
  decidable_of_iff (env.interrupted = false ∧
      (env.entryPtr.any fun l => (s.heap.cell l).isNone) = true ∧
      (env.dataPtr.any fun p => (s.heap.cell p).isNone) = true ∧ env.entryPtr ≠ env.dataPtr ∧
      buf.bytes.length + s.pending.length ≤ kmallocMaxSize) <| by
    constructor
    · rintro ⟨hint, hentry, hdata, hne, hsize⟩
      refine ⟨hint, ?_, ?_, hne, hsize⟩
      · simpa [Option.any_eq_true] using hentry
      · simpa [Option.any_eq_true] using hdata
    · intro h
      refine ⟨h.not_interrupted, ?_, ?_, h.ne, h.size_le⟩
      · simpa [Option.any_eq_true] using h.entry
      · simpa [Option.any_eq_true] using h.data

/-- A write that fits a block gets its allocations under some outcome, whatever the memory
holds and however many bytes are left uncopied. -/
lemma exists_allocates (hI : Inv s q []) (buf : UserBuf) (memory : ℕ → Byte) (uncopied : ℕ)
    (hsize : buf.bytes.length + s.pending.length ≤ kmallocMaxSize) :
    ∃ env, Allocates s buf env ∧ env.memory = memory ∧ env.uncopied = uncopied := by
  obtain ⟨l, -, hl⟩ := hI.owns.exists_dead 0
  obtain ⟨p, hlp, hp⟩ := hI.owns.exists_dead l
  refine ⟨⟨false, some l, some p, memory, uncopied⟩, ⟨rfl, ⟨l, rfl, hl⟩, ⟨p, rfl, hp⟩, ?_, hsize⟩,
    rfl, rfl⟩
  intro h
  have := Option.some.inj h
  omega

/-- The effect of a write that accumulated `acc`, with the answer `found` of the newline scan:
the bytes are committed as one command or kept pending. -/
structure Stored (s : Driver) (acc : List Byte) (found : Bool) (s' : Driver) : Prop where
  inv : ∃ q, Inv s' q []
  commands_eq : s'.commands = if found then (s.commands ++ [acc]).rtake 10 else s.commands
  pending_eq : s'.pending = if found then [] else acc
  circBuff_eq : ∃ p, s'.circBuff =
    if found then (aesdCircularBufferAddEntry s.circBuff ⟨some p, acc.length⟩).2 else s.circBuff
  slot_eq : found = true → entryBytes s'.heap (s'.circBuff.slot s.circBuff.inOffs) = acc
  gEntVal_eq : found = true → s'.gEntVal = .zero
  gEnt_eq : s'.gEnt = s.gEnt
  lock_eq : s'.lock = s.lock

/-- The effect of a write whose newline scan faults: the pending block is released, what the call
has allocated is lost, and the lock stays held. -/
structure Faulted (s s' : Driver) : Prop where
  inv : ∃ q extra, Inv s' q extra
  commands_eq : s'.commands = s.commands
  pending_eq : s'.pending = []
  circBuff_eq : s'.circBuff = s.circBuff
  lock_eq : s'.lock = true

/-- The number of bytes copied is at most the size of the user's buffer. -/
lemma WriteEnv.copied_le (env : WriteEnv) (buf : UserBuf) : env.copied buf ≤ buf.bytes.length :=
  Nat.sub_le _ _

lemma length_accumulated (s : Driver) (buf : UserBuf) (env : WriteEnv) :
    (accumulated s buf env).length = s.pending.length + env.copied buf := by
  rw [accumulated, List.length_append, List.length_take, Nat.min_eq_left (env.copied_le buf)]

/-- The number of bytes copied fits the return value. -/
lemma signed64_copied (env : WriteEnv) (buf : UserBuf) :
    signed64 (env.copied buf) = env.copied buf := by
  have h1 := env.copied_le buf
  have h2 := buf.length_le
  apply signed64_of_lt (by omega)
  rw [maxRwCount] at h2
  omega

/-- The entry the newest command is in. -/
lemma slot_addEntry {buffer : AesdCircularBuffer} (e : AesdBufferEntry) (h : buffer.inOffs < 10) :
    (aesdCircularBufferAddEntry buffer e).2.slot buffer.inOffs = e := by
  rw [AesdCircularBuffer.slot, aesdCircularBufferAddEntry, Vector.toList_setIfInBounds,
    List.getD_eq_getElem _ _ (by simpa using h), List.getElem_set_self]

@[simp] lemma length_fromUser (env : WriteEnv) (buf : UserBuf) :
    (env.fromUser buf).length = buf.bytes.length := by
  have hle := env.copied_le buf
  simp only [WriteEnv.fromUser, List.length_append, List.length_take, List.length_replicate]
  omega

/-- The block starts with the accumulated bytes. -/
lemma scannedBytes_of_lt (s : Driver) (buf : UserBuf) (env : WriteEnv) {i : ℕ}
    (hi : i < (accumulated s buf env).length) :
    scannedBytes s buf env i = (accumulated s buf env)[i] := by
  have hsplit : s.pending ++ env.fromUser buf =
      accumulated s buf env ++ List.replicate (buf.bytes.length - env.copied buf) 0 := by
    rw [accumulated, WriteEnv.fromUser, List.append_assoc]
  rw [scannedBytes, hsplit, List.getD_append _ _ _ _ hi, List.getD_eq_getElem _ _ hi]

/-- The byte after the accumulated ones: a zero if a byte was left uncopied, and otherwise what the
memory after the block holds. -/
lemma scannedBytes_length (s : Driver) (buf : UserBuf) (env : WriteEnv) :
    scannedBytes s buf env (accumulated s buf env).length =
      if env.copied buf < buf.bytes.length then 0 else env.memory (accumulated s buf env).length := by
  have hsplit : s.pending ++ env.fromUser buf =
      accumulated s buf env ++ List.replicate (buf.bytes.length - env.copied buf) 0 := by
    rw [accumulated, WriteEnv.fromUser, List.append_assoc]
  rw [scannedBytes, hsplit, List.getD_append_right _ _ _ _ le_rfl, Nat.sub_self]
  split_ifs with hlt
  · rw [List.getD_eq_getElem _ _ (by rw [List.length_replicate]; omega), List.getElem_replicate]
  · rw [List.getD_eq_default _ _ (by rw [List.length_replicate]; omega)]

/-- **The block of a write** before the newline scan.

**Proof sketch.** The stages in turn: the pending bytes are moved to the start of the block, and
what comes from the user is stored behind them, so the block holds the accumulated bytes followed by
zeros for those left uncopied and by the memory it was allocated with. -/
lemma writeAllocated_block (scan : Block → ℕ → Option Bool) (fPos : ℤ) (buf : UserBuf)
    {env : WriteEnv} {l p : ℕ} {b : Block} (hI : Inv s q [p, l]) (hp : s.heap.cell p = some (.data b))
    (hmem : b.bytes = env.memory) (hsize : b.size = buf.bytes.length + s.pending.length)
    (hmax : b.size ≤ kmallocMaxSize) :
    ∃ s₂, (writeAllocated scan s fPos buf env l p =
        match scan (scannedBlock s buf env) (accumulated s buf env).length with
        | none => .error s₂
        | some found =>
          let lEnt : AesdBufferEntry := ⟨some p, (accumulated s buf env).length⟩
          let s₃ := if found then commitEntry s₂ lEnt else keepEntry s₂ lEnt
          .ok ({ ret := env.copied buf, fPos := signed64 (fPos + env.copied buf) },
            { s₃ with heap := s₃.heap.free (some l) })) ∧
      Inv s₂ q [p, l] ∧ s₂ = { s with heap := s₂.heap, gEntVal := .zero } ∧
      q.map (entryBytes s₂.heap) = q.map (entryBytes s.heap) ∧
      EntryOk s₂.heap ⟨some p, (accumulated s buf env).length⟩ ∧
      entryBytes s₂.heap ⟨some p, (accumulated s buf env).length⟩ = accumulated s buf env := by
  obtain ⟨h, b₁, hmove, hI₁, hbytes₁, hp₁, hsize₁, hb₁, -⟩ := movePending_spec hI hp
  have hstart : s.gEntVal.size = s.pending.length := (length_entryBytes _ _).symm
  have hcopied := env.copied_le buf
  have hlen := length_accumulated s buf env
  set acc := accumulated s buf env with hacc
  obtain ⟨hI₂, hc₂⟩ := hI₁.store s.pending.length (env.fromUser buf)
  have hbytes₂ := (hI₁.frame_bytes hc₂).1
  have hp₂ := cell_store_self s.pending.length (env.fromUser buf) hp₁
  set h₂ := store h p s.pending.length (env.fromUser buf) with hh₂
  have hblock : blockAt h₂ (some p) = scannedBlock s buf env := by
    rw [blockAt_data hp₂, scannedBlock, hsize₁, hsize, Block.mk.injEq]
    refine ⟨rfl, funext fun i => ?_⟩
    simp only [scannedBytes, hb₁, hmem, length_fromUser]
    split_ifs with hi
    · rw [List.getD_append_right _ _ _ _ hi.1,
        List.getD_eq_getElem _ _ (by rw [length_fromUser]; omega),
        List.getD_eq_getElem _ _ (by rw [length_fromUser]; omega)]
    · rcases Nat.lt_or_ge i s.pending.length with hlt | hge
      · rw [List.getD_append _ _ _ _ hlt, List.getD_eq_getElem _ _ hlt]
      · rw [List.getD_append_right _ _ _ _ hge, List.getD_eq_default _ _ hge,
          List.getD_eq_default _ _ (by rw [length_fromUser]; omega)]
  have hfit : sizeT (s.pending.length + env.copied buf) = acc.length := by
    rw [hlen, sizeT_of_lt]
    rw [kmallocMaxSize] at hmax
    omega
  have hread : entryBytes h₂ ⟨some p, acc.length⟩ = acc := by
    apply List.ext_getElem (by simp)
    intro i hi hi'
    simp only [entryBytes, getElem_readBytes, Nat.zero_add, byteAt, hblock]
    exact scannedBytes_of_lt s buf env hi'
  have hok : EntryOk h₂ ⟨some p, acc.length⟩ :=
    ⟨p, _, rfl, hp₂, by simp only [hlen]; omega, by simp only; omega⟩
  refine ⟨{ s with heap := h₂, gEntVal := .zero }, ?_, hI₂, rfl, hbytes₂.trans hbytes₁, hok, hread⟩
  rw [writeAllocated, hmove]
  cases hscan : scan (scannedBlock s buf env) acc.length <;>
    simp only [hstart, hfit, ← hh₂, hblock, signed64_copied, hscan]

/-- **A write from its second allocation on** whose newline scan answers. -/
lemma writeAllocated_found (scan : Block → ℕ → Option Bool) (fPos : ℤ) {buf : UserBuf}
    {env : WriteEnv} (l : ℕ) {p : ℕ} {b : Block} {found : Bool} (hI : Inv s q [p, l])
    (hp : s.heap.cell p = some (.data b)) (hmem : b.bytes = env.memory)
    (hsize : b.size = buf.bytes.length + s.pending.length) (hmax : b.size ≤ kmallocMaxSize)
    (hfound : scan (scannedBlock s buf env) (accumulated s buf env).length = some found) :
    ∃ s', writeAllocated scan s fPos buf env l p =
        .ok ({ ret := env.copied buf, fPos := signed64 (fPos + env.copied buf) }, s') ∧
      Stored s (accumulated s buf env) found s' := by
  obtain ⟨s₂, hwrite, hI₂, hs₂, hbytes₂, hok, hread⟩ :=
    writeAllocated_block scan fPos buf hI hp hmem hsize hmax
  simp only [hfound] at hwrite
  set acc := accumulated s buf env with hacc
  refine ⟨_, hwrite, ?_⟩
  have hz : s₂.gEntVal = .zero := by rw [hs₂]
  have hcirc : s₂.circBuff = s.circBuff := by rw [hs₂]
  have hgEnt : s₂.gEnt = s.gEnt := by rw [hs₂]
  have hlock : s₂.lock = s.lock := by rw [hs₂]
  cases found with
  | true =>
    simp only [if_true]
    obtain ⟨hI₃, hbytes₃, -⟩ := commitEntry_spec hI₂ hz rfl hok
    set s₃ := commitEntry s₂ ⟨some p, acc.length⟩ with hs₃
    obtain ⟨hI₄, hc₄⟩ := hI₃.free
    have hcommands : s.commands ++ [acc] =
        (q ++ [(⟨some p, acc.length⟩ : AesdBufferEntry)]).map (entryBytes s₂.heap) := by
      rw [List.map_append, hbytes₂, hI.commands_eq, List.map_singleton, hread]
    have hpush := BoundedQueue.push_snd 10 (⟨some p, acc.length⟩ : AesdBufferEntry) hI.ring.length_le
    refine ⟨⟨_, hI₄⟩, ?_, ?_, ⟨p, ?_⟩, fun _ => ?_, fun _ => hz, hgEnt, hlock⟩
    · rw [hI₄.commands_eq, (hI₃.frame_bytes hc₄).1, hbytes₃, hpush, CircularList.map_rtake, hcommands]
      rfl
    · refine (hI₃.frame_bytes hc₄).2.trans ?_
      have hpend : s₃.gEntVal = .zero := hz
      rw [Driver.pending, hpend, entryBytes_zero]
      rfl
    · exact congrArg (fun r => (aesdCircularBufferAddEntry r ⟨some p, acc.length⟩).2) hcirc
    · have hslot : s₃.circBuff.slot s.circBuff.inOffs = ⟨some p, acc.length⟩ := by
        rw [← hcirc]
        exact slot_addEntry _ hI₂.ring.inOffs_lt
      have hmem : (⟨some p, acc.length⟩ : AesdBufferEntry) ∈
          (BoundedQueue.push 10 q ⟨some p, acc.length⟩).2 := by
        rw [hpush, List.rtake_concat_succ]
        simp
      have h₄ := List.map_inj_left.mp (hI₃.frame_bytes hc₄).1 _ hmem
      have h₃ := List.map_inj_left.mp hbytes₃ _ hmem
      rw [hslot]
      exact (h₄.trans h₃).trans hread
  | false =>
    simp only [Bool.false_eq_true, if_false]
    have hI₃ := keepEntry_spec hI₂ hz rfl hok
    obtain ⟨hI₄, hc₄⟩ := hI₃.free
    refine ⟨⟨_, hI₄⟩, ?_, ?_, ⟨p, hcirc⟩, by simp, by simp, hgEnt, hlock⟩
    · rw [hI₄.commands_eq, (hI₃.frame_bytes hc₄).1, hI.commands_eq]
      exact hbytes₂
    · exact (hI₃.frame_bytes hc₄).2.trans hread

/-- **A write from its second allocation on** whose newline scan faults. -/
lemma writeAllocated_fault (scan : Block → ℕ → Option Bool) (fPos : ℤ) {buf : UserBuf}
    {env : WriteEnv} (l : ℕ) {p : ℕ} {b : Block} (hI : Inv s q [p, l])
    (hp : s.heap.cell p = some (.data b)) (hmem : b.bytes = env.memory)
    (hsize : b.size = buf.bytes.length + s.pending.length) (hmax : b.size ≤ kmallocMaxSize)
    (hlock : s.lock = true)
    (hfault : scan (scannedBlock s buf env) (accumulated s buf env).length = none) :
    ∃ s', writeAllocated scan s fPos buf env l p = .error s' ∧ Faulted s s' := by
  obtain ⟨s₂, hwrite, hI₂, hs₂, hbytes₂, -, -⟩ :=
    writeAllocated_block scan fPos buf hI hp hmem hsize hmax
  simp only [hfault] at hwrite
  refine ⟨s₂, hwrite, ⟨q, _, hI₂⟩, ?_, ?_, ?_, ?_⟩
  · rw [hI₂.commands_eq, hI.commands_eq]
    exact hbytes₂
  · rw [hs₂]
    exact entryBytes_zero _
  · rw [hs₂]
  · rw [hs₂]
    exact hlock

/-- **The allocations of a write** with a free lock: they leave the contents as they are, and what
follows is the write from its second allocation on. -/
lemma aesdWriteLocked_of_allocates (scan : Block → ℕ → Option Bool) {buf : UserBuf} {env : WriteEnv}
    (fPos : ℤ) (hI : Inv s q []) (ha : Allocates s buf env) :
    ∃ s₂ l p b, aesdWriteLocked scan s.locked fPos buf env = writeAllocated scan s₂ fPos buf env l p ∧
      s₂ = { s with lock := true, heap := s₂.heap } ∧ Inv s₂ q [p, l] ∧
      s₂.heap.cell p = some (.data b) ∧ b.bytes = env.memory ∧
      b.size = buf.bytes.length + s.pending.length ∧ s₂.pending = s.pending ∧
      s₂.commands = s.commands := by
  obtain ⟨l, hl, hdead⟩ := ha.entry
  obtain ⟨p, hp, hpdead⟩ := ha.data
  have hne : p ≠ l := fun h => ha.ne (by rw [hl, hp, h])
  have hstart : s.gEntVal.size = s.pending.length := (length_entryBytes _ _).symm
  have hsize := ha.size_le
  have hfit : sizeT (buf.bytes.length + s.gEntVal.size) = buf.bytes.length + s.pending.length := by
    rw [hstart, sizeT_of_lt]
    rw [kmallocMaxSize] at hsize
    omega
  -- the two allocations
  have hI₁ := (hI.set_lock true).malloc (a := l) .entry hdead
  set h₁ := s.heap.put l .entry with hh₁
  have hpdead₁ : h₁.cell p = none := (Heap.cell_put_of_ne _ hne).trans hpdead
  set b : Block := ⟨buf.bytes.length + s.pending.length, env.memory⟩ with hb
  have hI₂ := hI₁.malloc (a := p) (.data b) hpdead₁
  set h₂ := h₁.put p (.data b) with hh₂
  have hp₂ : h₂.cell p = some (.data b) := Heap.cell_put_self _ _ _
  -- the allocations leave the commands and the pending bytes alone
  have hframe : ∀ a ∈ s.owned q, h₂.cell a = s.heap.cell a := by
    intro a ha'
    have hlive : a ∈ [] ++ s.owned q := ha'
    have hal : a ≠ l := by
      rintro rfl
      exact hI.owns.not_mem hdead hlive
    have hap : a ≠ p := by
      rintro rfl
      exact hI.owns.not_mem hpdead hlive
    rw [hh₂, Heap.cell_put_of_ne _ hap, hh₁, Heap.cell_put_of_ne _ hal]
  obtain ⟨hbytes, hpend⟩ := hI.frame_bytes hframe
  have hcommands : ({ s with lock := true, heap := h₂ } : Driver).commands = s.commands := by
    rw [hI₂.commands_eq, hI.commands_eq]
    exact hbytes
  refine ⟨{ s with lock := true, heap := h₂ }, l, p, b, ?_, rfl, hI₂, hp₂, rfl, rfl, hpend, hcommands⟩
  have hk₁ : kmalloc s.heap sizeofEntry env.entryPtr .entry = (some l, h₁) := by
    rw [hl]
    exact Heap.malloc_of_dead _ hdead
  have hk₂ : kmalloc h₁ (buf.bytes.length + s.pending.length) env.dataPtr (.data b) =
      (some p, h₂) := by
    rw [kmalloc, if_pos hsize, hp]
    exact Heap.malloc_of_dead _ hpdead₁
  simp only [aesdWriteLocked, Driver.locked, hk₁, hfit, ← hb, hk₂]

/-- **A write that gets the lock and its allocations** and whose newline scan answers copies what it
can, and stores the accumulated bytes as the scan answers. -/
theorem aesdWriteWith_of_found {scan : Block → ℕ → Option Bool} {buf : UserBuf} {env : WriteEnv}
    {found : Bool} (fPos : ℤ) (hI : Inv s q []) (hlock : s.lock = false) (ha : Allocates s buf env)
    (hfound : scan (scannedBlock s buf env) (accumulated s buf env).length = some found) :
    ∃ s', aesdWriteWith scan s fPos buf env =
        some ({ ret := env.copied buf, fPos := signed64 (fPos + env.copied buf) }, s') ∧
      Stored s (accumulated s buf env) found s' := by
  obtain ⟨s₂, l, p, b, hrun, hs₂, hI₂, hp, hmem, hsize, hpend, hcommands⟩ :=
    aesdWriteLocked_of_allocates scan fPos hI ha
  have hacc := accumulated_congr hpend buf env
  have hscan := scannedBlock_congr hpend buf env
  obtain ⟨s₃, hwrite, hstored⟩ := writeAllocated_found scan fPos l hI₂ hp hmem
    (by rw [hsize, hpend]) (hsize ▸ ha.size_le) (by rw [hacc, hscan, hfound])
  rw [hacc] at hstored
  refine ⟨s₃.unlock, ?_, ?_⟩
  · simp only [aesdWriteWith, mutexLockInterruptible, ha.not_interrupted, hlock,
      Bool.false_eq_true, if_false, hrun, hwrite]
  · obtain ⟨q', hq'⟩ := hstored.inv
    have hcirc : s₂.circBuff = s.circBuff := by rw [hs₂]
    have hgEnt : s₂.gEnt = s.gEnt := by rw [hs₂]
    refine ⟨⟨q', hq'.set_lock false⟩, ?_, hstored.pending_eq, hcirc ▸ hstored.circBuff_eq,
      hcirc ▸ hstored.slot_eq, hstored.gEntVal_eq, hstored.gEnt_eq.trans hgEnt, hlock.symm⟩
    rw [← hcommands]
    exact hstored.commands_eq

/-- **A write that gets the lock and its allocations** and whose newline scan faults ends there, with
the lock held. -/
lemma aesdWriteLocked_of_fault {scan : Block → ℕ → Option Bool} {buf : UserBuf} {env : WriteEnv}
    (fPos : ℤ) (hI : Inv s q []) (ha : Allocates s buf env)
    (hfault : scan (scannedBlock s buf env) (accumulated s buf env).length = none) :
    ∃ s', aesdWriteLocked scan s.locked fPos buf env = .error s' ∧ Faulted s s' := by
  obtain ⟨s₂, l, p, b, hrun, hs₂, hI₂, hp, hmem, hsize, hpend, hcommands⟩ :=
    aesdWriteLocked_of_allocates scan fPos hI ha
  have hacc := accumulated_congr hpend buf env
  have hscan := scannedBlock_congr hpend buf env
  have hlock : s₂.lock = true := by rw [hs₂]
  obtain ⟨s₃, hwrite, hfaulted⟩ := writeAllocated_fault scan fPos l hI₂ hp hmem
    (by rw [hsize, hpend]) (hsize ▸ ha.size_le) hlock (by rw [hacc, hscan, hfault])
  refine ⟨s₃, hrun.trans hwrite, hfaulted.inv, hfaulted.commands_eq.trans hcommands,
    hfaulted.pending_eq, hfaulted.circBuff_eq.trans (by rw [hs₂]), hfaulted.lock_eq⟩

/-- **A write that is interrupted or does not get its allocations** fails and changes
nothing. -/
theorem aesdWriteWith_of_not_allocates (scan : Block → ℕ → Option Bool) {buf : UserBuf}
    {env : WriteEnv} (fPos : ℤ) (hI : Inv s q []) (hlock : s.lock = false)
    (ha : ¬Allocates s buf env) :
    aesdWriteWith scan s fPos buf env =
      some ({ ret := if env.interrupted then -ERESTARTSYS else -ENOMEM, fPos }, s) := by
  cases hint : env.interrupted with
  | true => simp [aesdWriteWith, mutexLockInterruptible, hint]
  | false =>
    have hback : ({ s with lock := false } : Driver) = s := by rw [← hlock]
    simp only [aesdWriteWith, mutexLockInterruptible, hint, hlock, Bool.false_eq_true, if_false,
      aesdWriteLocked, Driver.locked]
    rcases hk₁ : kmalloc s.heap sizeofEntry env.entryPtr .entry with ⟨_ | l, h₁⟩
    · rw [kmalloc_none hk₁]
      exact congrArg (fun t => some (_, t)) hback
    · obtain ⟨-, hl, hdead, rfl⟩ := kmalloc_some hk₁
      set size := sizeT (buf.bytes.length + s.gEntVal.size) with hsz
      rcases hk₂ : kmalloc (s.heap.put l .entry) size env.dataPtr
        (.data ⟨size, env.memory⟩) with ⟨_ | p, h₂⟩
      · obtain rfl := kmalloc_none hk₂
        simp only [hk₂, Heap.free_put _ hdead]
        exact congrArg (fun t => some (_, t)) hback
      · obtain ⟨hmax, hp, hpdead, rfl⟩ := kmalloc_some hk₂
        -- both allocations succeeded
        have hne : p ≠ l := by
          rintro rfl
          simp at hpdead
        refine absurd ⟨hint, ⟨l, hl, hdead⟩, ⟨p, hp, ?_⟩, ?_, ?_⟩ ha
        · rwa [Heap.cell_put_of_ne _ hne] at hpdead
        · rw [hl, hp]
          exact fun h => hne (Option.some.inj h).symm
        · have hbuf := buf.length_le
          have hpend := hI.pending_size_le
          rw [hsz, sizeT_of_lt] at hmax
          · rwa [Driver.pending, length_entryBytes]
          · rw [maxRwCount] at hbuf
            rw [kmallocMaxSize] at hpend
            omega

end Aesd
