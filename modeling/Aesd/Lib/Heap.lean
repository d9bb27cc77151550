import Mathlib.Data.List.Basic
import Mathlib.Data.List.Perm.Basic
import Mathlib.Logic.Function.Basic
import Mathlib.Tactic.Common

set_option relaxedAutoImplicit false
set_option autoImplicit false

/-!
# Heaps and ownership of their blocks

A heap maps addresses to the objects that live there. `malloc` installs an object at an address
the environment chooses, or fails; an address that is still live is never handed out. `free`
releases an object, and a `free` of an address at which nothing lives is counted, so that a
double free is visible in every later state. A pointer is an optional address, `none` for
`NULL`.

A list of addresses *owns* the heap when its members are distinct and are exactly the live
addresses: nothing is leaked and nothing is owned twice.

## Main definitions

* `Heap`, `Heap.malloc`, `Heap.free`, `Heap.modify`.
* `Heap.Owns` — the live addresses are exactly the members of a list without repetitions.

## Main results

* `Heap.Owns.malloc`, `Heap.Owns.free`, `Heap.Owns.modify`, `Heap.Owns.perm` — how the
  operations move ownership.
-/

/-- A heap of objects of type `β`, with the number of frees of dead addresses so far. -/
structure Heap (β : Type*) where
  cell : ℕ → Option β
  badFrees : ℕ

namespace Heap

variable {β : Type*}

/-- A heap on which nothing lives. -/
def empty : Heap β := ⟨fun _ => none, 0⟩

/-- The heap with the object `b` at `p`. -/
def put (h : Heap β) (p : ℕ) (b : β) : Heap β := { h with cell := Function.update h.cell p (some b) }

/-- Allocate the object `b` at the address the environment chose, if it chose one that is not
live. The result is the pointer to it, `NULL` on failure. -/
def malloc (h : Heap β) (choice : Option ℕ) (b : β) : Option ℕ × Heap β :=
  match choice with
  | none => (none, h)
  | some p =>
    if (h.cell p).isSome then (none, h)
    else (some p, h.put p b)

/-- Release the object at an address; `free NULL` does nothing. -/
def free (h : Heap β) : Option ℕ → Heap β
  | none => h
  | some p =>
    if (h.cell p).isSome then { h with cell := Function.update h.cell p none }
    else { h with badFrees := h.badFrees + 1 }

/-- Change the object at an address. -/
def modify (h : Heap β) (p : ℕ) (f : β → β) : Heap β :=
  { h with cell := Function.update h.cell p ((h.cell p).map f) }

/-- The members of `l` are distinct and are exactly the live addresses. -/
structure Owns (h : Heap β) (l : List ℕ) : Prop where
  nodup : l.Nodup
  live : ∀ p, (h.cell p).isSome ↔ p ∈ l

/-! ## The operations -/

@[simp] lemma cell_empty (p : ℕ) : (empty : Heap β).cell p = none := rfl

@[simp] lemma cell_put_self (h : Heap β) (p : ℕ) (b : β) : (h.put p b).cell p = some b := by
  simp [put]

lemma cell_put_of_ne {h : Heap β} {p q : ℕ} (b : β) (hq : q ≠ p) :
    (h.put p b).cell q = h.cell q := by
  simp [put, hq]

/-- A failed allocation leaves the heap alone. -/
lemma malloc_none {h h' : Heap β} {choice : Option ℕ} {b : β} (e : h.malloc choice b = (none, h')) :
    h' = h := by
  cases choice with
  | none => exact (Prod.mk.inj e).2.symm
  | some p =>
    simp only [malloc] at e
    split_ifs at e
    · exact (Prod.mk.inj e).2.symm
    · exact absurd (Prod.mk.inj e).1 (by simp)

/-- A successful allocation returns a dead address and installs the object there. -/
lemma malloc_some {h h' : Heap β} {choice : Option ℕ} {b : β} {p : ℕ}
    (e : h.malloc choice b = (some p, h')) :
    choice = some p ∧ h.cell p = none ∧ h' = h.put p b := by
  cases choice with
  | none => exact absurd (Prod.mk.inj e).1 (by simp)
  | some q =>
    simp only [malloc] at e
    split_ifs at e with hq
    · exact absurd (Prod.mk.inj e).1 (by simp)
    · obtain ⟨h1, rfl⟩ := Prod.mk.inj e
      obtain rfl := Option.some.inj h1
      exact ⟨rfl, by simpa using hq, rfl⟩

/-- An allocation at a dead address succeeds. -/
lemma malloc_of_dead {h : Heap β} {p : ℕ} (b : β) (hp : h.cell p = none) :
    h.malloc (some p) b = (some p, h.put p b) := by
  simp [malloc, hp]

/-- Freeing a live address. -/
lemma free_live {h : Heap β} {p : ℕ} (hp : (h.cell p).isSome) :
    h.free (some p) = { h with cell := Function.update h.cell p none } := by
  simp [free, hp]

/-- Freeing the object just put at a dead address restores the heap. -/
lemma free_put {h : Heap β} {p : ℕ} (b : β) (hp : h.cell p = none) :
    (h.put p b).free (some p) = h := by
  rw [free_live (by simp), put]
  simp only [Function.update_idem]
  rw [← hp, Function.update_eq_self]

/-- Freeing an address touches no other one. -/
lemma cell_free_of_ne {h : Heap β} {p q : ℕ} (hq : q ≠ p) :
    (h.free (some p)).cell q = h.cell q := by
  by_cases hp : (h.cell p).isSome
  · simp [free_live hp, hq]
  · simp [free, hp]

lemma cell_modify_self (h : Heap β) (p : ℕ) (f : β → β) :
    (h.modify p f).cell p = (h.cell p).map f := by
  simp [modify]

lemma cell_modify_of_ne {h : Heap β} {p q : ℕ} (f : β → β) (hq : q ≠ p) :
    (h.modify p f).cell q = h.cell q := by
  simp [modify, hq]

/-! ## Ownership -/

namespace Owns

variable {h : Heap β} {l l' : List ℕ}

/-- Nothing owns the empty heap. -/
lemma empty : (empty : Heap β).Owns [] := ⟨List.nodup_nil, by simp⟩

/-- The order in which the owners are listed does not matter. -/
lemma perm (hl : h.Owns l) (e : l.Perm l') : h.Owns l' :=
  ⟨e.nodup_iff.mp hl.nodup, fun p => (hl.live p).trans e.mem_iff⟩

/-- A dead address is not owned. -/
lemma not_mem {p : ℕ} (hl : h.Owns l) (hp : h.cell p = none) : p ∉ l := by
  rw [← hl.live p, hp]
  simp

/-- There are dead addresses beyond any bound. -/
lemma exists_dead (hl : h.Owns l) (k : ℕ) : ∃ p, k < p ∧ h.cell p = none := by
  obtain ⟨m, hm⟩ : ∃ m, ∀ p ∈ l, p ≤ m := by
    clear hl
    induction l with
    | nil => exact ⟨0, by simp⟩
    | cons a l ih =>
      obtain ⟨m, hm⟩ := ih
      refine ⟨max a m, fun p hp => ?_⟩
      rcases List.mem_cons.mp hp with rfl | hp
      · exact Nat.le_max_left _ _
      · exact Nat.le_trans (hm p hp) (Nat.le_max_right _ _)
  refine ⟨max k m + 1, by omega, ?_⟩
  by_contra hlive
  have hmem := (hl.live _).mp (Option.isSome_iff_ne_none.mpr hlive)
  have := hm _ hmem
  omega

/-- A new block is owned by whoever allocated it. -/
lemma malloc {p : ℕ} (hl : h.Owns l) (b : β) (hp : h.cell p = none) :
    (h.put p b).Owns (p :: l) := by
  refine ⟨List.nodup_cons.mpr ⟨hl.not_mem hp, hl.nodup⟩, fun q => ?_⟩
  by_cases hq : q = p
  · simp [hq]
  · rw [cell_put_of_ne b hq, hl.live q, List.mem_cons, or_iff_right hq]

/-- An owner may free its block, which it then no longer owns. -/
lemma free {p : ℕ} (hl : h.Owns (p :: l)) :
    (h.free (some p)).Owns l ∧ (h.free (some p)).badFrees = h.badFrees := by
  have hp : (h.cell p).isSome := (hl.live p).mpr (by simp)
  obtain ⟨hpl, hnd⟩ := List.nodup_cons.mp hl.nodup
  rw [free_live hp]
  refine ⟨⟨hnd, fun q => ?_⟩, rfl⟩
  by_cases hq : q = p
  · simp [hq, hpl]
  · simp [hq, hl.live q]

/-- Freeing what a pointer owns, if it is not `NULL`. -/
lemma free_ptr {o : Option ℕ} (hl : h.Owns (o.toList ++ l)) :
    (h.free o).Owns l ∧ (h.free o).badFrees = h.badFrees := by
  cases o with
  | none => exact ⟨hl, rfl⟩
  | some p => exact free hl

/-- Freeing what a pointer owns leaves the objects of the other owners. -/
lemma cell_free_ptr {o : Option ℕ} (hl : h.Owns (o.toList ++ l)) {q : ℕ} (hq : q ∈ l) :
    (h.free o).cell q = h.cell q := by
  cases o with
  | none => rfl
  | some p =>
    apply cell_free_of_ne
    rintro rfl
    exact (List.nodup_cons.mp hl.nodup).1 hq

/-- Changing an object in place moves no ownership. -/
lemma modify (hl : h.Owns l) (p : ℕ) (f : β → β) : (h.modify p f).Owns l := by
  refine ⟨hl.nodup, fun q => ?_⟩
  by_cases hq : q = p
  · subst hq
    rw [cell_modify_self, Option.isSome_map, hl.live]
  · rw [cell_modify_of_ne f hq, hl.live]

end Owns

end Heap
