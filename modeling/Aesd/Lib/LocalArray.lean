import Mathlib.Data.List.Induction
import Mathlib.Logic.Function.Basic

set_option relaxedAutoImplicit false
set_option autoImplicit false

/-!
# Arrays that log their stores

An array of a declared length, as a function allocates it on its stack. A store at an index beyond
the length is carried out all the same: it changes the memory after the array. The indices of all
stores are logged, so that it can be said afterwards which of them were outside.

## Main definitions

* `LocalArray` — the declared length, the cells and the log.
* `LocalArray.storeFrom` — stores at consecutive indices, as a counting loop makes them.
* `LocalArray.outside` — the indices outside the array at which something was stored.

## Main results

* `LocalArray.map_cell_storeFrom`, `LocalArray.cell_storeFrom_of_lt` — the cells after such a loop.
* `LocalArray.outside_storeFrom_declare` — where such a loop stores outside.
-/

/-- An array: its declared length, the memory from its start on, and the indices stored at so far,
in order. -/
structure LocalArray (α : Type*) where
  size : ℕ
  cell : ℕ → α
  stores : List ℕ

namespace LocalArray

variable {α : Type*}

/-- A new array of the given length in the given memory. -/
def declare (size : ℕ) (memory : ℕ → α) : LocalArray α := ⟨size, memory, []⟩

/-- `a[i] = v`. -/
def store (a : LocalArray α) (i : ℕ) (v : α) : LocalArray α :=
  { a with cell := Function.update a.cell i v, stores := a.stores ++ [i] }

/-- The values are stored one after the other, from index `i` on. -/
def storeFrom (a : LocalArray α) (i : ℕ) : List α → LocalArray α
  | [] => a
  | v :: vs => (a.store i v).storeFrom (i + 1) vs

/-- The indices outside the array at which something was stored. -/
def outside (a : LocalArray α) : List ℕ := a.stores.filter (a.size ≤ ·)

/-- Every store was inside the array. -/
def InBounds (a : LocalArray α) : Prop := ∀ i ∈ a.stores, i < a.size

variable (a : LocalArray α) (i : ℕ) (v : α) (vs : List α)

@[simp] lemma size_store : (a.store i v).size = a.size := rfl

@[simp] lemma stores_store : (a.store i v).stores = a.stores ++ [i] := rfl

@[simp] lemma cell_store_self : (a.store i v).cell i = v := by simp [store]

/-- A store leaves the other cells alone. -/
lemma cell_store_of_ne {j : ℕ} (h : j ≠ i) : (a.store i v).cell j = a.cell j := by
  simp [store, h]

@[simp] lemma size_storeFrom : (a.storeFrom i vs).size = a.size := by
  induction vs generalizing a i with
  | nil => rfl
  | cons v vs ih => exact (ih (a.store i v) (i + 1)).trans (a.size_store i v)

/-- A loop leaves the cells before its first index alone. -/
lemma cell_storeFrom_of_lt {j : ℕ} (h : j < i) : (a.storeFrom i vs).cell j = a.cell j := by
  induction vs generalizing a i with
  | nil => rfl
  | cons v vs ih =>
    rw [storeFrom, ih (a.store i v) (i + 1) (by omega), a.cell_store_of_ne i v (by omega)]

/-- After a loop the cells it stored at hold its values, in order. -/
lemma map_cell_storeFrom : (List.range' i vs.length).map (a.storeFrom i vs).cell = vs := by
  induction vs generalizing a i with
  | nil => rfl
  | cons v vs ih =>
    rw [storeFrom, List.length_cons, List.range'_succ, List.map_cons, ih (a.store i v) (i + 1),
      (a.store i v).cell_storeFrom_of_lt (i + 1) vs (Nat.lt_succ_self i), cell_store_self]

/-- One more round of a loop. -/
lemma storeFrom_concat :
    a.storeFrom i (vs ++ [v]) = (a.storeFrom i vs).store (i + vs.length) v := by
  induction vs generalizing a i with
  | nil => rfl
  | cons w vs ih =>
    rw [List.cons_append, storeFrom, ih, storeFrom, List.length_cons, Nat.add_assoc,
      Nat.add_comm 1 vs.length]

/-- A store is outside if its index is beyond the declared length. -/
lemma outside_store :
    (a.store i v).outside = a.outside ++ if a.size ≤ i then [i] else [] := by
  rw [outside, stores_store, size_store, List.filter_append]
  by_cases h : a.size ≤ i <;> simp [outside, h]

/-- **A loop over a new array** stores outside at every index from the declared length on.

**Proof sketch.** Induction on the rounds of the loop: a round is outside once there have been as
many as the array is long. -/
lemma outside_storeFrom_declare (size : ℕ) (memory : ℕ → α) :
    ((declare size memory).storeFrom 0 vs).outside = List.range' size (vs.length - size) := by
  induction vs using List.reverseRecOn with
  | nil =>
    rw [List.length_nil, Nat.zero_sub]
    rfl
  | append_singleton vs v ih =>
    have hsize : ((declare size memory).storeFrom 0 vs).size = size := size_storeFrom _ 0 vs
    rw [storeFrom_concat, outside_store, ih, hsize, Nat.zero_add, List.length_append,
      List.length_singleton]
    rcases Nat.lt_or_ge vs.length size with hlt | hge
    · rw [if_neg (by omega), Nat.sub_eq_zero_of_le (by omega), Nat.sub_eq_zero_of_le (by omega),
        List.range'_zero, List.append_nil]
    · rw [if_pos hge, Nat.sub_add_comm hge, List.range'_1_concat, Nat.add_sub_cancel' hge]

variable {a i vs} in
/-- A loop that stays inside the array keeps every store inside. -/
lemma InBounds.storeFrom (h : a.InBounds) (hlen : i + vs.length ≤ a.size) :
    (a.storeFrom i vs).InBounds := by
  induction vs generalizing a i with
  | nil => exact h
  | cons v vs ih =>
    rw [List.length_cons] at hlen
    have hnext : (a.store i v).InBounds := by
      intro j hj
      rcases List.mem_append.mp hj with hj | hj
      · exact h j hj
      · rw [List.mem_singleton.mp hj, size_store]
        omega
    exact ih hnext (by rw [size_store]; omega)

/-- Nothing was stored outside exactly if every store was inside. -/
lemma outside_eq_nil : a.outside = [] ↔ a.InBounds := by
  simp [outside, InBounds]

end LocalArray
