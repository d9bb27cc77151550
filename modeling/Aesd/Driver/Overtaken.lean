import Aesd.Driver.LogDevice
import Aesd.Lib.Excerpt

set_option relaxedAutoImplicit false
set_option autoImplicit false

/-!
# A reader that is overtaken

The file position of a reader counts from the oldest command held. When a write evicts a command,
the same position is that many bytes further in the stream of all bytes committed, and the next
read goes on from there: the reader skips what was evicted, and is not told.

## Main definitions

* `Aesd.Following` — the device, a reader, and what it takes to tell what the reader misses.
* `Aesd.FollowStep` — a read of the reader, or any call through another open file.
* `Aesd.Follows` — the invariant of a reader and the stream.

## Main results

* `Aesd.overtaken_reader` — what the reader receives is an excerpt of the stream that skips exactly
  the bytes evicted.
-/

namespace Aesd

open Transition

/-- The device and the file position of a reader, the commands held at the start followed by those
committed since, and for each read of the reader how many bytes had been evicted and what it
delivered. -/
structure Following where
  dev : Driver
  fPos : ℤ
  committed : List (List Byte)
  reads : List (ℕ × List Byte)

/-- A reader that starts at position `0`. -/
def Following.start (s : Driver) : Following := ⟨s, 0, s.commands, []⟩

/-- The bytes of all commands, in the order of their commits. -/
def Following.stream (t : Following) : List Byte := t.committed.flatten

/-- The number of bytes evicted. -/
def Following.evicted (t : Following) : ℕ := t.stream.length - t.dev.commands.flatten.length

/-- A read of the reader or a call through another open file, with its reply. -/
inductive FollowLabel where
  | read (count : ℕ) (env : ReadEnv) (reply : Reply)
  | call (c : Call) (reply : Reply)

/-- One step. A read of the reader is at its file position; any call can be made through other
files. -/
def FollowStep (fsl : FixedSizeLlseek) (t : Following) : FollowLabel → Following → Prop
  | .read count env reply, u => aesdRead t.dev t.fPos count env = some (reply, u.dev) ∧
      u.fPos = reply.fPos ∧ u.committed = t.committed ∧
      u.reads = t.reads ++ [(t.evicted, reply.data)]
  | .call c reply, u => exec fsl t.dev c = some (reply, u.dev) ∧ u.fPos = t.fPos ∧
      u.committed = t.committed ++ (committedBy t.dev u.dev).toList ∧ u.reads = t.reads

/-- The commands held are the last of the stream, the file position is the number of bytes received,
and these are an excerpt of the stream. -/
structure Follows (t : Following) : Prop where
  inv : ∃ q, Inv t.dev q []
  committed_eq : ∃ gone, t.committed = gone ++ t.dev.commands
  fPos_eq : t.fPos = Excerpt.taken t.reads
  fPos_lt : t.fPos < 2 ^ 62
  excerpt : IsExcerpt t.stream t.reads
  skips_le : ∀ r ∈ t.reads, r.1 ≤ t.evicted

variable {fsl : FixedSizeLlseek} {s s' : Driver} {t u : Following}

namespace Follows

/-- What is held starts in the stream after the bytes evicted. -/
lemma drop_evicted (ht : Follows t) : t.stream.drop t.evicted = t.dev.commands.flatten := by
  obtain ⟨gone, hgone⟩ := ht.committed_eq
  rw [Following.evicted, Following.stream, hgone, List.flatten_append, List.length_append,
    Nat.add_sub_cancel, List.drop_left]

/-- **One read** delivers bytes at the position of the reader, counted after the bytes evicted. -/
lemma read (ht : Follows t) {count : ℕ} {env : ReadEnv} {reply : Reply}
    (h : FollowStep fsl t (.read count env reply) u) : Follows u := by
  obtain ⟨hread, hpos, hcommitted, hreads⟩ := h
  obtain ⟨q, hI⟩ := ht.inv
  have hdev : u.dev = t.dev := aesdRead_state hread
  have hstream : u.stream = t.stream := by rw [Following.stream, Following.stream, hcommitted]
  have hevicted : u.evicted = t.evicted := by
    rw [Following.evicted, Following.evicted, hstream, hdev]
  have hfPos := ht.fPos_eq
  have hlt := ht.fPos_lt
  -- what the read delivers, and where it leaves the file position
  have hdata : reply.data <+: t.dev.commands.flatten.drop (Excerpt.taken t.reads) ∧
      reply.fPos = t.fPos + reply.data.length ∧ reply.fPos < 2 ^ 62 := by
    cases hint : env.interrupted with
    | true =>
      rw [aesdRead_of_interrupted _ _ _ hint] at hread
      obtain ⟨rfl, -⟩ := Prod.mk.inj (Option.some.inj hread)
      exact ⟨List.nil_prefix, (Int.add_zero _).symm, hlt⟩
    | false =>
      cases hlock : t.dev.lock with
      | true =>
        rw [aesdRead_of_lock hlock _ _ hint] at hread
        exact absurd hread (by simp)
      | false =>
        have h0 : 0 ≤ t.fPos := by omega
        have hspec := aesdRead_spec hI hlock h0 (by omega) count hint
        rw [hread] at hspec
        obtain ⟨rfl, -⟩ := Prod.mk.inj (Option.some.inj hspec)
        have hstart := Segments.readAt_prefix t.dev.commands t.fPos.toNat count
        have htake := (List.take_prefix
          ((Segments.readAt t.dev.commands t.fPos.toNat count).length -
            min env.uncopied (Segments.readAt t.dev.commands t.fPos.toNat count).length)
          (Segments.readAt t.dev.commands t.fPos.toNat count)).trans hstart
        have hlen := htake.length_le
        have htotal := hI.length_flatten_lt
        rw [show t.fPos.toNat = Excerpt.taken t.reads by omega] at htake hlen ⊢
        simp only [List.length_take, List.length_drop] at hlen ⊢
        refine ⟨htake, ?_, ?_⟩ <;> omega
  obtain ⟨hstart, hnext, hnextlt⟩ := hdata
  refine ⟨hdev ▸ ht.inv, ?_, ?_, by omega, ?_, ?_⟩
  · rw [hcommitted, hdev]
    exact ht.committed_eq
  · rw [hpos, hnext, hreads, Excerpt.taken_concat, hfPos]
    rfl
  · rw [hstream, hreads]
    refine ht.excerpt.concat ?_ ht.skips_le
    rwa [← List.drop_drop, ht.drop_evicted]
  · rw [hreads, hevicted]
    intro r hr
    rcases List.mem_append.mp hr with hr | hr
    · exact ht.skips_le r hr
    · rw [List.mem_singleton.mp hr]

/-- **One call through another file** only appends to the stream. -/
lemma call (ht : Follows t) {c : Call} {reply : Reply}
    (h : FollowStep fsl t (.call c reply) u) : Follows u := by
  obtain ⟨hexec, hpos, hcommitted, hreads⟩ := h
  obtain ⟨q, hI⟩ := ht.inv
  obtain ⟨gone, hgone⟩ := ht.committed_eq
  -- what the call commits, and the commands it leaves
  obtain ⟨new, hnew, hcommands⟩ : ∃ new, u.committed = t.committed ++ new ∧
      ∃ k, t.dev.commands ++ new = (t.dev.commands ++ new).take k ++ u.dev.commands := by
    refine ⟨_, hcommitted, ?_⟩
    rcases exec_cases hI hexec with hdev | ⟨-, hdev⟩ | ⟨_, _, _, _, -, hd⟩
    · rw [committedBy_of_eq (by rw [hdev]), hdev]
      exact ⟨0, by simp⟩
    · have hsame : u.dev.commands = t.dev.commands := by
        rw [hdev]
        rfl
      rw [committedBy_of_eq (by rw [hdev]; rfl), hsame]
      exact ⟨0, by simp⟩
    · rw [hd.stored.committedBy_eq, hd.stored.commands_eq]
      split_ifs
      · exact ⟨_, (List.take_append_drop _ _).symm⟩
      · exact ⟨0, by simp⟩
  obtain ⟨k, hk⟩ := hcommands
  have hsplit : u.committed = gone ++ (t.dev.commands ++ new).take k ++ u.dev.commands := by
    rw [hnew, hgone, List.append_assoc, List.append_assoc, ← hk]
  have hstream : t.stream <+: u.stream := ⟨new.flatten, by
    rw [Following.stream, Following.stream, hnew, List.flatten_append]⟩
  have hevicted : t.evicted ≤ u.evicted := by
    rw [Following.evicted, Following.evicted, Following.stream, Following.stream, hsplit, hgone]
    simp only [List.flatten_append, List.length_append]
    omega
  refine ⟨exec_inv hI hexec, ⟨_, hsplit⟩, ?_, hpos ▸ ht.fPos_lt, ?_, ?_⟩
  · rw [hpos, hreads]
    exact ht.fPos_eq
  · rw [hreads]
    exact ht.excerpt.mono hstream
  · rw [hreads]
    exact fun r hr => (ht.skips_le r hr).trans hevicted

/-- A reader that has not read yet. -/
lemma start {q : List AesdBufferEntry} (hI : Inv s q []) : Follows (.start s) where
  inv := ⟨q, hI⟩
  committed_eq := ⟨[], rfl⟩
  fPos_eq := rfl
  fPos_lt := by
    simp only [Following.start]
    omega
  excerpt := .nil _
  skips_le := by simp [Following.start]

end Follows

/-- **A reader that is overtaken.** Take a reader at position `0` of a device in any reachable state,
with any counts and any outcome of its reads, and any calls through other files in between. At any
time the commands held are the end of the stream of all bytes committed, and the file position of
the reader is the number of bytes it has received. Each of its reads delivered the bytes of the
stream that come after as many bytes as had been received and evicted before it, so what it has
received is a sublist of the stream: exactly the bytes evicted between two reads are skipped. If
nothing had been evicted before the last read that delivered something, it is a prefix. -/
theorem overtaken_reader (hs : Reachable fsl s) {ls : List FollowLabel}
    (hrun : Run (FollowStep fsl) (.start s) ls t) :
    t.stream.drop t.evicted = t.dev.commands.flatten ∧
      t.fPos = (t.reads.flatMap Prod.snd).length ∧
      (∀ pre r post, t.reads = pre ++ r :: post →
        r.2 <+: t.stream.drop (r.1 + (pre.flatMap Prod.snd).length)) ∧
      (t.reads.map Prod.fst ++ [t.evicted]).Pairwise (· ≤ ·) ∧
      (t.reads.flatMap Prod.snd).Sublist t.stream ∧
      ((∀ r ∈ t.reads, r.2 ≠ [] → r.1 = 0) → t.reads.flatMap Prod.snd <+: t.stream) := by
  obtain ⟨q, hI⟩ := hs.inv
  have ht : Follows t := by
    refine hrun.invariant (I := Follows) (.start hI) ?_
    intro t l u ht hstep
    cases l with
    | read count env reply => exact ht.read hstep
    | call c reply => exact ht.call hstep
  refine ⟨ht.drop_evicted, ?_, fun pre r post hreads => ?_, ?_, ht.excerpt.sublist,
    ht.excerpt.prefix_of_skips_zero⟩
  · rw [ht.fPos_eq, Excerpt.taken_eq]
  · rw [← Excerpt.taken_eq]
    exact ht.excerpt.piece pre r post hreads
  · refine List.pairwise_append.mpr ⟨ht.excerpt.sorted, List.pairwise_singleton _ _, ?_⟩
    intro a ha b hb
    obtain ⟨r, hr, rfl⟩ := List.mem_map.mp ha
    obtain rfl := List.mem_singleton.mp hb
    exact ht.skips_le r hr

/-- A reader of a full device reads one byte of the oldest line, `"a\n"`; then the line `"d\n"` is
written through another file, which evicts the oldest; and the reader reads on, in the line after it,
two bytes further in the stream. -/
theorem overtaken_reader_one_eviction :
    ∃ s ls t, Run (FollowStep fixedSizeLlseek) (.start s) ls t ∧
      s.commands = [97, 10] :: List.replicate 9 [98, 99, 10] ∧
      t.dev.commands = List.replicate 9 [98, 99, 10] ++ [[100, 10]] ∧
      t.reads = [(0, [97]), (2, [99, 10])] ∧ t.evicted = 2 ∧
      [97, 99, 10].Sublist t.stream := by
  obtain ⟨s, q, hs, hI, hlock, hcont⟩ :=
    exists_device fixedSizeLlseek ([97, 10] :: List.replicate 9 [98, 99, 10]) (by decide)
  have hcommands : s.commands = [97, 10] :: List.replicate 9 [98, 99, 10] :=
    congrArg Contents.commands hcont
  have hpending : s.pending = [] := congrArg Contents.pending hcont
  have hint : (⟨false, 0⟩ : ReadEnv).interrupted = false := rfl
  -- the first read
  have hread := aesdRead_spec hI hlock (show (0 : ℤ) ≤ 0 by decide) (by decide) 1 hint
  rw [hcommands] at hread
  have hevicted : (Following.start s).evicted = 0 := Nat.sub_self _
  have hfirst : FollowStep fixedSizeLlseek (.start s) (.read 1 ⟨false, 0⟩ _)
      ⟨s, 1, s.commands, [(0, [97])]⟩ := ⟨hread, rfl, rfl, by rw [hevicted]; rfl⟩
  -- the write that evicts
  obtain ⟨env, s', hwrite, hstored⟩ := exists_aesdWrite hI hlock 0 ⟨[100, 10], by decide⟩
    (by rw [hpending]; decide) (by simp)
  rw [hpending] at hstored
  have hsecond : FollowStep fixedSizeLlseek ⟨s, 1, s.commands, [(0, [97])]⟩
      (.call (.write 0 ⟨[100, 10], by decide⟩ env) _)
      ⟨s', 1, s.commands ++ [[100, 10]], [(0, [97])]⟩ :=
    ⟨hwrite, rfl, by rw [hstored.committedBy_eq]; rfl, rfl⟩
  have hcommands' : s'.commands = List.replicate 9 [98, 99, 10] ++ [[100, 10]] := by
    rw [hstored.commands_eq, hcommands]
    decide
  -- the second read
  obtain ⟨q', hI'⟩ := hstored.inv
  have hread' := aesdRead_spec hI' (hstored.lock_eq.trans hlock) (show (0 : ℤ) ≤ 1 by decide)
    (by decide) 5 hint
  rw [hcommands'] at hread'
  have hskipped : (⟨s', 1, s.commands ++ [[100, 10]], [(0, [97])]⟩ : Following).evicted = 2 := by
    simp only [Following.evicted, Following.stream, hcommands, hcommands']
    decide
  have hthird : FollowStep fixedSizeLlseek ⟨s', 1, s.commands ++ [[100, 10]], [(0, [97])]⟩
      (.read 5 ⟨false, 0⟩ _)
      ⟨s', 3, s.commands ++ [[100, 10]], [(0, [97]), (2, [99, 10])]⟩ :=
    ⟨hread', rfl, rfl, by rw [hskipped]; rfl⟩
  have hrun := ((Run.single hfirst).snoc hsecond).snoc hthird
  exact ⟨s, _, _, hrun, hcommands, hcommands', rfl, hskipped,
    (overtaken_reader hs hrun).2.2.2.2.1⟩

end Aesd
