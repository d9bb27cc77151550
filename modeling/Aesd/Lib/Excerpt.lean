import Mathlib.Algebra.BigOperators.Group.List.Basic
import Mathlib.Algebra.Order.Ring.Nat
import Mathlib.Data.List.Flatten
import Mathlib.Data.List.Infix
import Mathlib.Data.Nat.Notation
import Mathlib.Tactic.TypeStar
import Mathlib.Tactic.Lemma

set_option relaxedAutoImplicit false
set_option autoImplicit false

/-!
# Excerpts of a growing stream

A reader that takes pieces of a stream in order, and skips some of it between them, has an
*excerpt* of the stream. Each piece comes with the number of elements skipped before it, counted
from the start, so that its position is this number plus the elements taken before it.

## Main definitions

* `Excerpt.taken` — how many elements the pieces have.
* `IsExcerpt` — each piece is at its position, and the numbers skipped do not decrease.

## Main results

* `IsExcerpt.mono`, `IsExcerpt.concat` — the stream grows, and one more piece is taken.
* `IsExcerpt.sublist` — the pieces are a sublist of the stream.
* `IsExcerpt.prefix_of_skips_zero` — they are a prefix of it if nothing was skipped.
-/

variable {α : Type*}

/-- The number of elements of the pieces. -/
def Excerpt.taken (ps : List (ℕ × List α)) : ℕ := (ps.map fun p => p.2.length).sum

/-- Pieces of a stream, each with the number of elements skipped before it. -/
structure IsExcerpt (stream : List α) (ps : List (ℕ × List α)) : Prop where
  piece : ∀ pre p post, ps = pre ++ p :: post → p.2 <+: stream.drop (p.1 + Excerpt.taken pre)
  sorted : (ps.map Prod.fst).Pairwise (· ≤ ·)

namespace Excerpt

@[simp] lemma taken_nil : taken ([] : List (ℕ × List α)) = 0 := rfl

@[simp] lemma taken_concat (ps : List (ℕ × List α)) (p : ℕ × List α) :
    taken (ps ++ [p]) = taken ps + p.2.length := by
  simp [taken]

lemma taken_eq (ps : List (ℕ × List α)) : taken ps = (ps.flatMap Prod.snd).length := by
  rw [taken, List.length_flatMap]

end Excerpt

namespace IsExcerpt

open Excerpt

variable {stream stream' : List α} {ps : List (ℕ × List α)} {p : ℕ × List α}

/-- No piece. -/
lemma nil (stream : List α) : IsExcerpt stream [] where
  piece pre p post h := by simp at h
  sorted := .nil

/-- The stream grows. -/
lemma mono (h : IsExcerpt stream ps) (hle : stream <+: stream') : IsExcerpt stream' ps where
  piece pre p post hps := (h.piece pre p post hps).trans (hle.drop _)
  sorted := h.sorted

/-- The pieces before the last. -/
lemma init (h : IsExcerpt stream (ps ++ [p])) : IsExcerpt stream ps where
  piece pre r post hps := h.piece pre r (post ++ [p]) (by rw [hps, List.append_assoc]; rfl)
  sorted := by
    have hsorted := h.sorted
    rw [List.map_append, List.pairwise_append] at hsorted
    exact hsorted.1

/-- The last piece is at its position. -/
lemma last (h : IsExcerpt stream (ps ++ [p])) : p.2 <+: stream.drop (p.1 + taken ps) :=
  h.piece ps p [] rfl

/-- Before the last piece at least as much was skipped as before the others. -/
lemma skips_le_last (h : IsExcerpt stream (ps ++ [p])) : ∀ r ∈ ps, r.1 ≤ p.1 := by
  have hsorted := h.sorted
  rw [List.map_append, List.pairwise_append] at hsorted
  exact fun r hr => hsorted.2.2 _ (List.mem_map_of_mem hr) _ List.mem_cons_self

/-- **One more piece**, at its position, after at least as much was skipped as before. -/
lemma concat (h : IsExcerpt stream ps) (hp : p.2 <+: stream.drop (p.1 + taken ps))
    (hskip : ∀ r ∈ ps, r.1 ≤ p.1) : IsExcerpt stream (ps ++ [p]) where
  piece pre r post hps := by
    rcases List.eq_nil_or_concat post with rfl | ⟨post, r', rfl⟩
    · obtain ⟨rfl, hr⟩ := List.append_inj' hps rfl
      obtain rfl := List.singleton_inj.mp hr
      exact hp
    · rw [List.concat_eq_append, ← List.cons_append, ← List.append_assoc] at hps
      exact h.piece pre r post (List.append_inj' hps rfl).1
  sorted := by
    rw [List.map_append, List.pairwise_append]
    refine ⟨h.sorted, List.pairwise_singleton _ _, fun a ha b hb => ?_⟩
    obtain ⟨r, hr, rfl⟩ := List.mem_map.mp ha
    obtain rfl := List.mem_singleton.mp hb
    exact hskip r hr

/-- The pieces are a sublist of the stream up to the end of the last.

**Proof sketch.** Induction on the pieces from the last one. The pieces before it are a sublist of
the stream up to their end, which is not after the position of the last one, where it starts. -/
lemma sublist_take {k : ℕ} (h : IsExcerpt stream ps) (hk : ∀ r ∈ ps, r.1 ≤ k) :
    (ps.flatMap Prod.snd).Sublist (stream.take (k + taken ps)) := by
  induction ps using List.reverseRecOn generalizing k with
  | nil => simp
  | append_singleton ps p ih =>
    have hinit := ih h.init h.skips_le_last
    have hlast : p.2 = (stream.drop (p.1 + taken ps)).take p.2.length :=
      List.prefix_iff_eq_take.mp h.last
    have hle : p.1 + (taken ps + p.2.length) ≤ k + taken (ps ++ [p]) := by
      rw [taken_concat]
      have := hk p (by simp)
      omega
    refine List.Sublist.trans ?_ (List.take_prefix_take_left hle).sublist
    rw [List.flatMap_append, List.flatMap_cons, List.flatMap_nil, List.append_nil,
      ← Nat.add_assoc, List.take_add]
    exact hinit.append (by rw [← hlast])

/-- **The pieces are a sublist of the stream.** -/
theorem sublist (h : IsExcerpt stream ps) : (ps.flatMap Prod.snd).Sublist stream := by
  rcases List.eq_nil_or_concat ps with rfl | ⟨ps, p, rfl⟩
  · simp
  · rw [List.concat_eq_append] at h ⊢
    refine (h.sublist_take (k := p.1) fun r hr => ?_).trans (List.take_sublist _ _)
    rcases List.mem_append.mp hr with hr | hr
    · exact h.skips_le_last r hr
    · rw [List.mem_singleton.mp hr]

/-- **The pieces are a prefix of the stream** if nothing was skipped before those that are not
empty. -/
theorem prefix_of_skips_zero (h : IsExcerpt stream ps) (h0 : ∀ p ∈ ps, p.2 ≠ [] → p.1 = 0) :
    ps.flatMap Prod.snd <+: stream := by
  induction ps using List.reverseRecOn with
  | nil => simp
  | append_singleton ps p ih =>
    have hinit := ih h.init fun r hr => h0 r (by simp [hr])
    rw [List.flatMap_append, List.flatMap_cons, List.flatMap_nil, List.append_nil]
    by_cases hp : p.2 = []
    · rw [hp, List.append_nil]
      exact hinit
    · have hlast := h.last
      rw [h0 p (by simp) hp, Nat.zero_add, taken_eq] at hlast
      obtain ⟨rest, hrest⟩ := hinit
      rw [← hrest, List.drop_left] at hlast
      rw [← hrest]
      exact (List.prefix_append_right_inj _).mpr hlast

end IsExcerpt
