import Mathlib.Data.List.Basic
import Mathlib.Tactic.Common

set_option relaxedAutoImplicit false
set_option autoImplicit false

/-!
# Ledgers of resources

A ledger records what happens to the resources a program acquires. They are numbered in the order in
which they are acquired, so that a number is never given out twice; a number that is released is
recorded, and so is a use of a resource after its release. A program holds the numbers in variables,
`none` for no resource: releasing or using `none` does nothing.

## Main definitions

* `Ledger`, `Ledger.acquire`, `Ledger.release`, `Ledger.use`.
* `Ledger.Owes` — what has been acquired has been released once, but for what is still held.
* `Ledger.Settled` — what has been acquired has been released exactly once.
* `Ledger.SettledBut` — the same, but for resources that are still allowed to be held.
* `Ledger.outstanding` — the number of resources not released.

## Main results

* `Ledger.Owes.acquire`, `Ledger.Owes.release` — how the operations move what is held.
* `Ledger.Owes.settled` — nothing is held any more.
-/

/-- The number of resources acquired, those released, and those used after their release. -/
structure Ledger where
  acquired : ℕ
  released : List ℕ
  misused : List ℕ
deriving DecidableEq

namespace Ledger

/-- Nothing has happened yet. -/
def empty : Ledger := ⟨0, [], []⟩

/-- Acquire a resource. Its number is `l.acquired`. -/
def acquire (l : Ledger) : Ledger := { l with acquired := l.acquired + 1 }

/-- Release the resource in a variable. -/
def release (l : Ledger) : Option ℕ → Ledger
  | none => l
  | some k => { l with released := k :: l.released }

/-- Use the resource in a variable. -/
def use (l : Ledger) : Option ℕ → Ledger
  | none => l
  | some k => if k ∈ l.released then { l with misused := k :: l.misused } else l

/-- Everything acquired has been released exactly once. -/
def Settled (l : Ledger) : Prop := ∀ k < l.acquired, l.released.count k = 1

/-- Everything acquired has been released exactly once, or not at all if it may still be held. -/
def SettledBut (l : Ledger) (mayHold : ℕ → Prop) : Prop :=
  ∀ k < l.acquired, l.released.count k = 1 ∨ (l.released.count k = 0 ∧ mayHold k)

/-- The number of resources that have been acquired and not released. -/
def outstanding (l : Ledger) : ℕ := ((List.range l.acquired).filter (· ∉ l.released)).length

/-- Everything acquired has been released exactly once, but for what is held, which has not been
released. -/
structure Owes (l : Ledger) (held : List ℕ) : Prop where
  nodup : held.Nodup
  count_held : ∀ k ∈ held, k < l.acquired ∧ l.released.count k = 0
  count_eq : ∀ k < l.acquired, k ∉ held → l.released.count k = 1
  lt_acquired : ∀ k ∈ l.released, k < l.acquired

@[simp] lemma acquired_acquire (l : Ledger) : l.acquire.acquired = l.acquired + 1 := rfl

@[simp] lemma released_acquire (l : Ledger) : l.acquire.released = l.released := rfl

@[simp] lemma acquired_release (l : Ledger) (v : Option ℕ) :
    (l.release v).acquired = l.acquired := by
  cases v <;> rfl

@[simp] lemma release_none (l : Ledger) : l.release none = l := rfl

@[simp] lemma released_release (l : Ledger) (k : ℕ) :
    (l.release (some k)).released = k :: l.released := rfl

@[simp] lemma misused_release (l : Ledger) (v : Option ℕ) : (l.release v).misused = l.misused := by
  cases v <;> rfl

@[simp] lemma acquired_use (l : Ledger) (v : Option ℕ) : (l.use v).acquired = l.acquired := by
  cases v with
  | none => rfl
  | some k => by_cases h : k ∈ l.released <;> simp [use, h]

@[simp] lemma released_use (l : Ledger) (v : Option ℕ) : (l.use v).released = l.released := by
  cases v with
  | none => rfl
  | some k => by_cases h : k ∈ l.released <;> simp [use, h]

/-- Using a resource that has not been released is no misuse. -/
lemma use_of_not_mem {l : Ledger} {k : ℕ} (h : k ∉ l.released) : l.use (some k) = l := if_neg h

/-- If nothing has been released, everything acquired may still be held. -/
lemma settledBut_iff_of_released_nil {l : Ledger} (h : l.released = []) (mayHold : ℕ → Prop) :
    l.SettledBut mayHold ↔ ∀ k < l.acquired, mayHold k := by
  simp [SettledBut, h]

/-- If nothing has been released, nothing has been acquired. -/
lemma settled_iff_of_released_nil {l : Ledger} (h : l.released = []) :
    l.Settled ↔ l.acquired = 0 := by
  rw [Settled, h]
  constructor
  · intro hall
    by_contra hne
    exact absurd (hall 0 (Nat.pos_of_ne_zero hne)) (by simp)
  · intro h0 k hk
    omega

/-- No more is outstanding than has been acquired. -/
lemma outstanding_le (l : Ledger) : l.outstanding ≤ l.acquired := by
  have hle := List.length_filter_le (· ∉ l.released) (List.range l.acquired)
  rwa [List.length_range] at hle

namespace Owes

variable {l : Ledger} {held : List ℕ} {k : ℕ}

/-- Nothing is held at the start. -/
lemma empty : Owes Ledger.empty [] :=
  ⟨List.nodup_nil, by simp, by simp [Ledger.empty], by simp [Ledger.empty]⟩

/-- What is held has not been released. -/
lemma not_mem (h : Owes l held) (hk : k ∈ held) : k ∉ l.released :=
  List.count_eq_zero.mp (h.count_held k hk).2

/-- **A new resource is held.** -/
lemma acquire (h : Owes l held) : Owes l.acquire (l.acquired :: held) := by
  have hnew : l.acquired ∉ held := fun hmem => absurd (h.count_held _ hmem).1 (Nat.lt_irrefl _)
  refine ⟨List.nodup_cons.mpr ⟨hnew, h.nodup⟩, ?_, ?_, ?_⟩
  · intro k hk
    rw [acquired_acquire, released_acquire]
    rcases List.mem_cons.mp hk with rfl | hk
    · refine ⟨Nat.lt_succ_self _, List.count_eq_zero.mpr fun hmem => ?_⟩
      exact absurd (h.lt_acquired _ hmem) (Nat.lt_irrefl _)
    · exact ⟨Nat.lt_succ_of_lt (h.count_held k hk).1, (h.count_held k hk).2⟩
  · intro k hk hnot
    rw [List.mem_cons, not_or] at hnot
    rw [acquired_acquire] at hk
    exact h.count_eq k (by omega) hnot.2
  · intro k hk
    exact Nat.lt_succ_of_lt (h.lt_acquired k hk)

/-- **A resource that is held is released.** -/
lemma release (h : Owes l (k :: held)) : Owes (l.release (some k)) held := by
  obtain ⟨hk, hnodup⟩ := List.nodup_cons.mp h.nodup
  obtain ⟨hlt, hcount⟩ := h.count_held k List.mem_cons_self
  refine ⟨hnodup, ?_, ?_, ?_⟩
  · intro j hj
    have hne : k ≠ j := fun heq => hk (heq ▸ hj)
    obtain ⟨hlt', hcount'⟩ := h.count_held j (List.mem_cons_of_mem _ hj)
    rw [acquired_release, released_release, List.count_cons_of_ne hne]
    exact ⟨hlt', hcount'⟩
  · intro j hj hnot
    rw [acquired_release] at hj
    rw [released_release]
    rcases eq_or_ne k j with rfl | hne
    · rw [List.count_cons_self, hcount]
    · rw [List.count_cons_of_ne hne]
      exact h.count_eq j hj fun hmem => (List.mem_cons.mp hmem).elim (fun heq => hne heq.symm) hnot
  · intro j hj
    rw [released_release] at hj
    rw [acquired_release]
    rcases List.mem_cons.mp hj with rfl | hj
    · exact hlt
    · exact h.lt_acquired j hj

/-- Using what is held changes nothing. -/
lemma use_eq (h : Owes l held) (hk : k ∈ held) : l.use (some k) = l :=
  use_of_not_mem (h.not_mem hk)

/-- What is held may be held. -/
lemma settledBut (h : Owes l held) {mayHold : ℕ → Prop} (hheld : ∀ k ∈ held, mayHold k) :
    l.SettledBut mayHold := by
  intro k hk
  by_cases hmem : k ∈ held
  · exact .inr ⟨(h.count_held k hmem).2, hheld k hmem⟩
  · exact .inl (h.count_eq k hk hmem)

/-- **Nothing is held any more**: everything has been released once. -/
lemma settled (h : Owes l []) : l.Settled := fun k hk => h.count_eq k hk List.not_mem_nil

end Owes

end Ledger
