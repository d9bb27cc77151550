import Aesd.Lib.Heap

set_option relaxedAutoImplicit false
set_option autoImplicit false

/-!
# Singly linked lists in a heap

A list is a chain of live objects, each with a pointer to the next one. `Linked next h p l` says
that the chain from the pointer `p` in the heap `h` passes through exactly the addresses `l`, in
this order, and ends in `NULL`; `next` reads the link of an object.

## Main definitions

* `LinkedList.Linked` — the chain from a pointer.

## Main results

* `LinkedList.Linked.congr` — a chain only depends on the links of its objects.
* `LinkedList.Linked.put`, `LinkedList.Linked.free` — insertion at the head, and removal.
-/

namespace LinkedList

variable {β : Type*} (next : β → Option ℕ)

/-- The chain from `p` passes through the addresses in the list. -/
def Linked (h : Heap β) : Option ℕ → List ℕ → Prop
  | p, [] => p = none
  | p, a :: l => p = some a ∧ ∃ b, h.cell a = some b ∧ Linked h (next b) l

namespace Linked

variable {next} {h h' : Heap β} {p : Option ℕ} {a : ℕ} {l : List ℕ}

/-- The objects of a chain are live. -/
lemma live (hl : Linked next h p l) (ha : a ∈ l) : (h.cell a).isSome := by
  induction l generalizing p with
  | nil => exact absurd ha List.not_mem_nil
  | cons c l ih =>
    obtain ⟨-, b, hb, hl⟩ := hl
    rcases List.mem_cons.mp ha with rfl | ha
    · rw [hb]
      rfl
    · exact ih hl ha

/-- **A chain only depends on the links of its objects.** -/
lemma congr (hl : Linked next h p l)
    (hc : ∀ a ∈ l, (h'.cell a).map next = (h.cell a).map next) : Linked next h' p l := by
  induction l generalizing p with
  | nil => exact hl
  | cons c l ih =>
    obtain ⟨hp, b, hb, hl⟩ := hl
    have hcell := hc c List.mem_cons_self
    rw [hb, Option.map_some, Option.map_eq_some_iff] at hcell
    obtain ⟨b', hb', hnext⟩ := hcell
    refine ⟨hp, b', hb', ?_⟩
    rw [hnext]
    exact ih hl fun a ha => hc a (List.mem_cons_of_mem _ ha)

/-- A new object beside a chain. -/
lemma put_dead (hl : Linked next h p l) (ha : h.cell a = none) (b : β) :
    Linked next (h.put a b) p l := by
  apply hl.congr
  intro c hc
  have hne : c ≠ a := by
    intro h
    have hlive := hl.live hc
    rw [h, ha] at hlive
    exact absurd hlive (by simp)
  rw [Heap.cell_put_of_ne b hne]

/-- A new object in front of a chain. -/
lemma put (hl : Linked next h p l) (ha : h.cell a = none) {b : β} (hb : next b = p) :
    Linked next (h.put a b) (some a) (a :: l) := by
  refine ⟨rfl, b, Heap.cell_put_self _ _ _, ?_⟩
  rw [hb]
  exact hl.put_dead ha b

/-- Changing an object but not its link. -/
lemma modify (hl : Linked next h p l) (a : ℕ) {f : β → β} (hf : ∀ b, next (f b) = next b) :
    Linked next (h.modify a f) p l := by
  apply hl.congr
  intro c _
  rcases eq_or_ne c a with rfl | hne
  · rw [Heap.cell_modify_self, Option.map_map]
    congr 1
    funext b
    exact hf b
  · rw [Heap.cell_modify_of_ne f hne]

/-- Releasing an object that is not in the chain. -/
lemma free (hl : Linked next h p l) (ha : a ∉ l) : Linked next (h.free (some a)) p l := by
  apply hl.congr
  intro c hc
  have hne : c ≠ a := by
    intro h
    exact ha (h ▸ hc)
  rw [Heap.cell_free_of_ne hne]

end Linked

end LinkedList
