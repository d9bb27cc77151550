import Mathlib.Data.List.Basic
import Mathlib.Tactic.Common

set_option relaxedAutoImplicit false
set_option autoImplicit false

/-!
# Splitting a list after each terminator

A list is cut after every occurrence of a terminator. Each piece but the last ends with the
terminator and has no other occurrence of it; what follows the last terminator, if anything, is the
last piece and has none. Nothing is lost: the pieces make up the list.

## Main definitions

* `Pieces.Complete` — a piece that ends with its only terminator.
* `Pieces.split` — the pieces of a list.

## Main results

* `Pieces.flatten_split` — the pieces make up the list.
* `Pieces.split_append`, `Pieces.split_of_not_mem` — the first piece of a list.
* `Pieces.split_flatten` — complete pieces are the pieces of their concatenation.
-/

namespace Pieces

variable {α : Type*}

/-- The piece ends with the terminator and has no other occurrence of it. -/
def Complete (t : α) (p : List α) : Prop := ∃ body, p = body ++ [t] ∧ t ∉ body

variable [DecidableEq α] {t : α}

/-- The pieces of a list that is cut after every terminator. -/
def split (t : α) : List α → List (List α)
  | [] => []
  | a :: as =>
    if a = t then [a] :: split t as
    else
      match split t as with
      | [] => [[a]]
      | p :: ps => (a :: p) :: ps

/-- **The pieces make up the list.** -/
lemma flatten_split (t : α) (as : List α) : (split t as).flatten = as := by
  induction as with
  | nil => rfl
  | cons a as ih =>
    unfold split
    split_ifs with ha
    · rw [List.flatten_cons, ih, List.singleton_append]
    · split
      · next h => rw [← ih, h]; rfl
      · next p ps h => rw [← ih, h]; rfl

/-- The first piece of a list with a terminator. -/
lemma split_append {body : List α} (h : t ∉ body) (as : List α) :
    split t (body ++ t :: as) = (body ++ [t]) :: split t as := by
  induction body with
  | nil => simp [split]
  | cons b body ih =>
    obtain ⟨hb, hbody⟩ := List.ne_and_not_mem_of_not_mem_cons h
    rw [List.cons_append, split, if_neg (Ne.symm hb), ih hbody]
    rfl

/-- A list without a terminator is one piece. -/
lemma split_of_not_mem {as : List α} (h : t ∉ as) (hne : as ≠ []) : split t as = [as] := by
  induction as with
  | nil => exact absurd rfl hne
  | cons a as ih =>
    obtain ⟨ha, has⟩ := List.ne_and_not_mem_of_not_mem_cons h
    rw [split, if_neg (Ne.symm ha)]
    cases as with
    | nil => rfl
    | cons b as => rw [ih has (by simp)]

/-- A start without a terminator is no longer than what comes before the first one. -/
lemma length_le_takeWhile {p as : List α} (h : p <+: as) (hp : t ∉ p) :
    p.length ≤ (as.takeWhile (· ≠ t)).length := by
  obtain ⟨rest, rfl⟩ := h
  have hall : ∀ a ∈ p, decide (a ≠ t) = true :=
    fun a ha => decide_eq_true fun heq => hp (heq ▸ ha)
  rw [List.takeWhile_append_of_pos hall, List.length_append]
  exact Nat.le_add_right _ _

/-- A list without a terminator, or its first piece. -/
lemma not_mem_or_append (t : α) (as : List α) :
    t ∉ as ∨ ∃ body tail, as = body ++ t :: tail ∧ t ∉ body := by
  by_cases h : t ∈ as
  · exact .inr (List.eq_append_cons_of_mem h)
  · exact .inl h

/-- What comes before the first terminator lies in the first piece. -/
lemma exists_head_split {as : List α} (h : t ∉ as) (hne : as ≠ []) (bs : List α) :
    ∃ p, (split t (as ++ bs)).head? = some p ∧ as.length ≤ p.length := by
  rcases not_mem_or_append t bs with hbs | ⟨body, tail, rfl, hbody⟩
  · refine ⟨as ++ bs, ?_, by rw [List.length_append]; omega⟩
    rw [split_of_not_mem (by simp [h, hbs]) (by simp [hne])]
    rfl
  · refine ⟨as ++ body ++ [t], ?_, by rw [List.length_append, List.length_append]; omega⟩
    rw [← List.append_assoc, split_append (by simp [h, hbody])]
    rfl

/-- **Complete pieces are the pieces of their concatenation**, in front of the pieces of what
follows. -/
lemma split_flatten {ps : List (List α)} (h : ∀ p ∈ ps, Complete t p) (as : List α) :
    split t (ps.flatten ++ as) = ps ++ split t as := by
  induction ps with
  | nil => rfl
  | cons p ps ih =>
    obtain ⟨body, rfl, hbody⟩ := h p List.mem_cons_self
    have hrest := ih fun q hq => h q (List.mem_cons_of_mem _ hq)
    rw [List.flatten_cons, List.append_assoc, List.append_assoc, List.singleton_append,
      split_append hbody, hrest, List.cons_append]

end Pieces
