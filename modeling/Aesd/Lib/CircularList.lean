import Mathlib.Data.List.DropRight
import Mathlib.Data.List.GetD
import Mathlib.Data.List.Rotate
import Mathlib.Algebra.BigOperators.Group.List.Basic
import Mathlib.Algebra.Order.Ring.Nat

set_option relaxedAutoImplicit false
set_option autoImplicit false

/-!
# Circular arrays as windows over a history

An array of fixed length with a write position that moves by one slot and wraps around is read
as the list that starts at the write position: its *unrolling* `l.rotate k`. Overwriting the
slot at the write position and moving on drops the head of the unrolling and appends the new
element, so the unrolling is a window of constant length over the elements written.

## Main results

* `CircularList.rotate_set` — one write on the unrolling.
* `CircularList.rtake_rtake_append` — a window after one more element.
* `CircularList.getD_rotate` — element `i` of the unrolling is the array's element at the
  wrapped index.
-/

namespace CircularList

variable {α : Type*}

/-- Overwriting the slot at the write position and advancing it drops the oldest element of the
unrolling and appends the new one.

**Proof sketch.** Split the array at the write position `k` into `take k`, the slot and
`drop (k + 1)`. If the slot is the last one the new position is `0` and the unrolling is the
whole array; otherwise it is `drop (k + 1)` followed by `take (k + 1)` of the updated array. -/
lemma rotate_set {l : List α} {k : ℕ} (a : α) (h : k < l.length) :
    (l.set k a).rotate ((k + 1) % l.length) = (l.rotate k).tail ++ [a] := by
  have hset : l.set k a = l.take k ++ a :: l.drop (k + 1) := List.set_eq_take_append_cons_drop.trans
    (by rw [if_pos h])
  have hold : (l.rotate k).tail = l.drop (k + 1) ++ l.take k := by
    rw [List.rotate_eq_drop_append_take h.le, List.drop_eq_getElem_cons h, List.cons_append,
      List.tail_cons]
  have hlen : (l.take k ++ [a]).length = k + 1 := by simp; omega
  rw [hold, hset, List.append_cons]
  rcases Nat.lt_or_ge (k + 1) l.length with hk | hk
  · rw [Nat.mod_eq_of_lt hk, List.rotate_eq_drop_append_take (by simp; omega),
      List.drop_left' hlen, List.take_left' hlen, List.append_assoc]
  · have hk : l.length = k + 1 := by omega
    rw [hk, Nat.mod_self, List.rotate_zero, List.drop_of_length_le (by omega)]
    simp

/-- The number of the last `n` elements. -/
@[simp] lemma length_rtake (l : List α) (n : ℕ) : (l.rtake n).length = min n l.length := by
  rw [List.rtake, List.length_drop]
  omega

/-- A window after one more element only depends on the window before. -/
lemma rtake_rtake_append (l : List α) (a : α) (n : ℕ) :
    (l.rtake n ++ [a]).rtake n = (l ++ [a]).rtake n := by
  cases n with
  | zero => simp
  | succ n =>
    rw [List.rtake_concat_succ, List.rtake_concat_succ, List.rtake, length_rtake, List.rtake,
      List.rtake, List.drop_drop]
    congr 2
    omega

/-- Mapping a window. -/
lemma map_rtake {β : Type*} (f : α → β) (l : List α) (n : ℕ) :
    (l.rtake n).map f = (l.map f).rtake n := by
  simp [List.rtake, List.map_drop]

/-- Element `i` of the unrolling from `k`. -/
lemma getD_rotate {l : List α} {k i : ℕ} (d : α) (h : i < l.length) :
    (l.rotate k).getD i d = l.getD ((i + k) % l.length) d := by
  rw [List.getD_eq_getElem?_getD, List.getD_eq_getElem?_getD, List.getElem?_rotate h]

end CircularList
