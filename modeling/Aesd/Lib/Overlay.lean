import Mathlib.Data.List.Basic
import Mathlib.Data.List.Induction
import Mathlib.Order.MinMax

set_option relaxedAutoImplicit false
set_option autoImplicit false

/-!
# Texts written over each other

A text is written over another one from its start on: what the new text does not reach stays. After
several texts, each position has the element of the last text that reaches it.

## Main definitions

* `Overlay.overwrite` — one text over another.
* `Overlay.overlay` — texts over a first one, in order.
* `Overlay.topmost` — the last text that reaches a position.

## Main results

* `Overlay.getElem?_overlay` — each element comes from the topmost text.
* `Overlay.length_overlay_le_iff` — the result is as long as the longest text.
* `Overlay.overlay_concat_eq_iff` — when the result is the last text.
-/

namespace Overlay

variable {α : Type*} {base old new w : List α} {ws : List (List α)} {n k : ℕ}

/-- The new text over the old one. -/
def overwrite (old new : List α) : List α := new ++ old.drop new.length

/-- The texts, in order, over the first one. -/
def overlay (base : List α) (ws : List (List α)) : List α := ws.foldl overwrite base

/-- The last text that reaches the position, or else the first one. -/
def topmost (base : List α) (ws : List (List α)) (k : ℕ) : List α :=
  (ws.reverse.find? fun w => k < w.length).getD base

/-! ## Two texts -/

/-- The result is as long as the longer text. -/
lemma length_overwrite : (overwrite old new).length = max old.length new.length := by
  rw [overwrite, List.length_append, List.length_drop]
  omega

/-- The new text, and what it does not reach. -/
lemma getElem?_overwrite (k : ℕ) :
    (overwrite old new)[k]? = if k < new.length then new[k]? else old[k]? := by
  rw [overwrite]
  split_ifs with hk
  · exact List.getElem?_append_left hk
  · rw [List.getElem?_append_right (by omega), List.getElem?_drop]
    congr 1
    omega

/-- Nothing of a text is left exactly if it is no longer than the one over it. -/
lemma overwrite_eq_right_iff : overwrite old new = new ↔ old.length ≤ new.length := by
  rw [overwrite, List.append_right_eq_self, List.drop_eq_nil_iff]

/-! ## Any number of texts -/

/-- One more text. -/
lemma overlay_concat (base : List α) (ws : List (List α)) (w : List α) :
    overlay base (ws ++ [w]) = overwrite (overlay base ws) w := List.foldl_concat overwrite base w ws

/-- The last text is the topmost one where it reaches. -/
lemma topmost_concat (base : List α) (ws : List (List α)) (w : List α) (k : ℕ) :
    topmost base (ws ++ [w]) k = if k < w.length then w else topmost base ws k := by
  rw [topmost, topmost, List.reverse_append, List.reverse_singleton, List.singleton_append,
    List.find?_cons]
  split_ifs with hk <;> simp [hk]

/-- **Each element comes from the topmost text.** -/
theorem getElem?_overlay (base : List α) (ws : List (List α)) (k : ℕ) :
    (overlay base ws)[k]? = (topmost base ws k)[k]? := by
  induction ws using List.reverseRecOn with
  | nil => rfl
  | append_singleton ws w ih =>
    rw [overlay_concat, getElem?_overwrite, topmost_concat, ih]
    split_ifs <;> rfl

/-- **The result is as long as the longest text.** -/
theorem length_overlay_le_iff :
    (overlay base ws).length ≤ n ↔ ∀ v ∈ base :: ws, v.length ≤ n := by
  induction ws using List.reverseRecOn with
  | nil => simp [overlay]
  | append_singleton ws w ih =>
    rw [overlay_concat, length_overwrite, max_le_iff, ih, ← List.cons_append,
      List.forall_mem_append, List.forall_mem_singleton]

/-- **The result is the last text** exactly if no text before is longer. -/
theorem overlay_concat_eq_iff :
    overlay base (ws ++ [w]) = w ↔ ∀ v ∈ base :: ws, v.length ≤ w.length := by
  rw [overlay_concat, overwrite_eq_right_iff, length_overlay_le_iff]

end Overlay
