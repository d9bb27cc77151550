import Aesd.Lib.CircularList

set_option relaxedAutoImplicit false
set_option autoImplicit false

/-!
# Bounded queues

A queue of bounded capacity that never refuses an element: once it is full, pushing an element
evicts the oldest one. After any sequence of pushes it holds the last elements pushed, and the
evicted ones come out in the order in which they went in, each exactly once.

## Main definitions

* `BoundedQueue.push`, `BoundedQueue.pushAll` — one push, and a sequence of pushes, with what
  was evicted.

## Main results

* `BoundedQueue.pushAll_nil_snd` — the queue is a window over the elements pushed.
* `BoundedQueue.pushAll_nil_fst` — what each push evicted.
-/

namespace BoundedQueue

variable {α : Type*} (cap : ℕ)

/-- Push `a`: the evicted element, if the queue was full, and the queue afterwards. -/
def push (q : List α) (a : α) : Option α × List α :=
  if q.length < cap then (none, q ++ [a]) else ((q ++ [a]).head?, (q ++ [a]).tail)

/-- Push the elements of a list in order, collecting what each push evicted. -/
def pushAll (q : List α) : List α → List (Option α) × List α
  | [] => ([], q)
  | a :: as => ((push cap q a).1 :: (pushAll (push cap q a).2 as).1, (pushAll (push cap q a).2 as).2)

/-- Pushing one more element. -/
lemma pushAll_concat (q as : List α) (a : α) :
    pushAll cap q (as ++ [a]) =
      ((pushAll cap q as).1 ++ [(push cap (pushAll cap q as).2 a).1],
        (push cap (pushAll cap q as).2 a).2) := by
  induction as generalizing q with
  | nil => rfl
  | cons b as ih => simp [pushAll, ih]

/-- A push loses nothing: what it evicted, followed by the queue, is what was there. -/
lemma push_toList_append (q : List α) (a : α) :
    (push cap q a).1.toList ++ (push cap q a).2 = q ++ [a] := by
  unfold push
  split_ifs
  · rfl
  · cases q <;> rfl

/-- After a push to a queue within its capacity, the queue holds the last elements. -/
lemma push_snd {q : List α} (a : α) (h : q.length ≤ cap) :
    (push cap q a).2 = (q ++ [a]).rtake cap := by
  unfold push
  split_ifs with hq
  · rw [List.rtake, List.length_append, List.length_singleton, show q.length + 1 - cap = 0 by omega,
      List.drop_zero]
  · rw [List.rtake, List.length_append, List.length_singleton, show q.length + 1 - cap = 1 by omega,
      List.drop_one]

/-- **The queue holds the last elements pushed.** -/
theorem pushAll_nil_snd (as : List α) : (pushAll cap [] as).2 = as.rtake cap := by
  induction as using List.reverseRecOn with
  | nil => simp [pushAll]
  | append_singleton as a ih =>
    rw [pushAll_concat, ih, push]
    simp only [CircularList.length_rtake]
    split_ifs with h
    · rw [List.rtake, List.rtake, List.length_append, List.length_singleton,
        show as.length - cap = 0 by omega, show as.length + 1 - cap = 0 by omega]
      rfl
    · simp only [List.rtake, List.length_append, List.length_singleton]
      rw [← List.drop_append_of_le_length (by omega), List.tail_drop]
      congr 1
      omega

/-- **What the pushes evicted**: nothing while the queue fills, then the elements in the order
in which they were pushed.

**Proof sketch.** Induction on the pushes from the last one. A push to a queue that is not full
evicts nothing; a push to a full one evicts the head of the window, the element pushed `cap`
pushes earlier. -/
theorem pushAll_nil_fst (as : List α) :
    (pushAll cap [] as).1 =
      List.replicate (min as.length cap) none ++ (as.take (as.length - cap)).map some := by
  induction as using List.reverseRecOn with
  | nil => simp [pushAll]
  | append_singleton as a ih =>
    rw [pushAll_concat, ih, pushAll_nil_snd, push]
    simp only [CircularList.length_rtake, List.length_append, List.length_singleton]
    split_ifs with h
    · rw [show as.length - cap = 0 by omega, show as.length + 1 - cap = 0 by omega,
        show min (as.length + 1) cap = min as.length cap + 1 by omega, List.replicate_succ']
      simp
    · have hhead : (as.rtake cap ++ [a]).head? = (as ++ [a])[as.length - cap]? := by
        rw [List.rtake, ← List.drop_append_of_le_length (by omega), List.head?_drop]
      have htake : (as ++ [a]).take (as.length + 1 - cap) =
          as.take (as.length - cap) ++ ((as ++ [a])[as.length - cap]?).toList := by
        rw [show as.length + 1 - cap = as.length - cap + 1 by omega, List.take_add_one,
          List.take_append_of_le_length (by omega)]
      have hget : as.length - cap < (as ++ [a]).length := by
        rw [List.length_append, List.length_singleton]
        omega
      rw [hhead, htake, List.getElem?_eq_getElem hget,
        show min (as.length + 1) cap = min as.length cap by omega]
      simp

/-- Every element pushed was either evicted or is still held. -/
lemma take_append_rtake (as : List α) : as.take (as.length - cap) ++ as.rtake cap = as :=
  List.take_append_drop _ _

end BoundedQueue
