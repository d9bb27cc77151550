import Mathlib.Algebra.BigOperators.Group.List.Basic
import Mathlib.Algebra.Order.Ring.Nat
import Mathlib.Data.List.GetD

set_option relaxedAutoImplicit false
set_option autoImplicit false

/-!
# Positions in a concatenation

A byte position in the concatenation of a list of segments falls into exactly one segment, at
an offset inside it, or lies at or beyond the end. `locate` finds the segment from the segment
lengths alone; the rest of the file relates it to the prefix sums of the lengths and to the
contents of the segments. Empty segments hold no position.

## Main definitions

* `Segments.locate` — the segment index and the offset of a position.
* `Segments.readAt` — a read at a position that stops at the end of the segment.

## Main results

* `Segments.locate_eq_some` — `locate` characterized by prefix sums.
* `Segments.locate_eq_none` — a position is not located exactly when it is at or beyond the end.
* `Segments.drop_flatten` — the concatenation from a located position on.
* `Segments.readAt_prefix` — a read delivers the elements from its position on.
-/

namespace Segments

variable {α : Type*}

/-- The index of the segment that holds position `pos` when segments of lengths `ns` are
concatenated, with the offset of the position in that segment. -/
def locate : List ℕ → ℕ → Option (ℕ × ℕ)
  | [], _ => none
  | n :: ns, pos =>
    if pos < n then some (0, pos) else (locate ns (pos - n)).map fun p => (p.1 + 1, p.2)

/-- No segment holds a position exactly when it is at or beyond the total length. -/
lemma locate_eq_none {ns : List ℕ} {pos : ℕ} : locate ns pos = none ↔ ns.sum ≤ pos := by
  induction ns generalizing pos with
  | nil => simp [locate]
  | cons n ns ih =>
    simp only [locate, List.sum_cons]
    split_ifs with h
    · simp; omega
    · rw [Option.map_eq_none_iff, ih]; omega

/-- Segment `i` holds the position at offset `off` exactly when the position is the total
length of the earlier segments plus `off`, and `off` is smaller than the segment.

**Proof sketch.** Induction on the lengths: a position below the first length is in segment
`0`, any other position is looked up in the rest after subtracting the first length. -/
lemma locate_eq_some {ns : List ℕ} {pos i off : ℕ} :
    locate ns pos = some (i, off) ↔
      off < ns.getD i 0 ∧ pos = (ns.take i).sum + off := by
  induction ns generalizing pos i with
  | nil => simp [locate]
  | cons n ns ih =>
    simp only [locate]
    split_ifs with h
    · cases i with
      | zero => simp; omega
      | succ i => simp; omega
    · cases i with
      | zero => simp; omega
      | succ i =>
        simp only [Option.map_eq_some_iff, Prod.mk.injEq, Prod.exists, List.getD_cons_succ,
          List.take_succ_cons, List.sum_cons]
        constructor
        · rintro ⟨j, o, hj, hi, rfl⟩
          obtain rfl : j = i := by omega
          obtain ⟨h1, h2⟩ := ih.mp hj
          exact ⟨h1, by omega⟩
        · rintro ⟨h1, h2⟩
          exact ⟨i, off, ih.mpr ⟨h1, by omega⟩, rfl, rfl⟩

/-- An offset is smaller than segment `i`, from the segments or from their lengths. -/
lemma lt_size_getD_iff {β : Type*} (size : β → ℕ) (ls : List β) (d : β) (i off : ℕ) :
    (i < ls.length ∧ off < size (ls.getD i d)) ↔ off < (ls.map size).getD i 0 := by
  rcases Nat.lt_or_ge i ls.length with hi | hi
  · rw [List.getD_eq_getElem _ _ hi, List.getD_eq_getElem _ _ (by simpa using hi),
      List.getElem_map]
    exact and_iff_right hi
  · rw [List.getD_eq_default (ls.map size) _ (by simpa using hi)]
    exact iff_of_false (fun h => absurd h.1 (by omega)) (Nat.not_lt_zero _)

/-- A located segment exists. -/
lemma index_lt {ns : List ℕ} {pos i off : ℕ} (h : locate ns pos = some (i, off)) :
    i < ns.length := by
  obtain ⟨h1, -⟩ := locate_eq_some.mp h
  by_contra hi
  rw [List.getD_eq_default _ _ (by omega)] at h1
  omega

/-- Empty segments in front shift the index and keep the offset. -/
lemma locate_replicate_zero_append (k : ℕ) (ns : List ℕ) (pos : ℕ) :
    locate (List.replicate k 0 ++ ns) pos = (locate ns pos).map fun p => (p.1 + k, p.2) := by
  induction k with
  | zero => simp
  | succ k ih =>
    rw [List.replicate_succ, List.cons_append, locate, if_neg (Nat.not_lt_zero _), Nat.sub_zero, ih,
      Option.map_map]
    rfl

/-- The concatenation from a position on starts with the rest of the segment that holds it. -/
lemma drop_flatten {ls : List (List α)} {pos i off : ℕ}
    (h : locate (ls.map List.length) pos = some (i, off)) :
    ls.flatten.drop pos = (ls.getD i []).drop off ++ (ls.drop (i + 1)).flatten := by
  obtain ⟨h1, h2⟩ := locate_eq_some.mp h
  have hi : i < ls.length := by simpa using index_lt h
  have hoff : off ≤ ls[i].length := by
    rw [List.getD_eq_getElem _ _ (by simpa using hi), List.getElem_map] at h1
    exact Nat.le_of_lt h1
  rw [h2, ← List.drop_drop, List.drop_sum_flatten, List.drop_eq_getElem_cons hi,
    List.flatten_cons, List.drop_append_of_le_length hoff, List.getD_eq_getElem _ _ hi]

/-- The rest of a located segment is not empty. -/
lemma offset_lt {ls : List (List α)} {pos i off : ℕ}
    (h : locate (ls.map List.length) pos = some (i, off)) : off < (ls.getD i []).length := by
  obtain ⟨h1, -⟩ := locate_eq_some.mp h
  have hi : i < ls.length := by simpa using index_lt h
  rw [List.getD_eq_getElem _ _ (by simpa using hi), List.getElem_map] at h1
  rwa [List.getD_eq_getElem _ _ hi]

/-- The element at a position is the element at the offset in the segment that holds it. -/
lemma getElem?_flatten {ls : List (List α)} {pos i off : ℕ}
    (h : locate (ls.map List.length) pos = some (i, off)) :
    ls.flatten[pos]? = (ls.getD i [])[off]? := by
  have hoff := offset_lt h
  have hdrop := congrArg (fun l => l[0]?) (drop_flatten h)
  simp only [List.getElem?_drop, Nat.add_zero] at hdrop
  rw [hdrop, List.getElem?_append_left (by rw [List.length_drop]; omega), List.getElem?_drop,
    Nat.add_zero]

/-! ## Reading at a position -/

/-- A read of at most `count` elements at position `pos`, from the segment that holds the
position only. -/
def readAt (ls : List (List α)) (pos count : ℕ) : List α :=
  match locate (ls.map List.length) pos with
  | none => []
  | some (i, off) => ((ls.getD i []).drop off).take count

/-- A read delivers at most what was asked for. -/
lemma length_readAt_le (ls : List (List α)) (pos count : ℕ) :
    (readAt ls pos count).length ≤ count := by
  unfold readAt
  split
  · exact Nat.zero_le _
  · exact List.length_take_le _ _

/-- **A read delivers the elements from its position on.** -/
lemma readAt_prefix (ls : List (List α)) (pos count : ℕ) :
    readAt ls pos count <+: ls.flatten.drop pos := by
  unfold readAt
  split
  · exact List.nil_prefix
  · next i off h =>
    rw [drop_flatten h]
    exact (List.take_prefix _ _).trans (List.prefix_append _ _)

/-- A read that asks for something delivers nothing exactly at or beyond the end. -/
lemma readAt_eq_nil {ls : List (List α)} {pos count : ℕ} (hc : 0 < count) :
    readAt ls pos count = [] ↔ ls.flatten.length ≤ pos := by
  rw [List.length_flatten, ← locate_eq_none]
  unfold readAt
  split
  · next h => simp [h]
  · next i off h =>
    have hoff := offset_lt h
    rw [h, List.take_eq_nil_iff, List.drop_eq_nil_iff]
    refine iff_of_false ?_ (by simp)
    omega

/-- The elements a read delivers are consecutive elements of one segment. -/
lemma readAt_infix {ls : List (List α)} {pos count : ℕ} (h : readAt ls pos count ≠ []) :
    ∃ l ∈ ls, readAt ls pos count <:+: l := by
  unfold readAt at h ⊢
  split at h
  · exact absurd rfl h
  · next i off hloc =>
    have hi : i < ls.length := by simpa using index_lt hloc
    refine ⟨ls[i], List.getElem_mem hi, ?_⟩
    rw [List.getD_eq_getElem _ _ hi]
    exact (List.take_prefix _ _).isInfix.trans (List.drop_suffix _ _).isInfix

end Segments
