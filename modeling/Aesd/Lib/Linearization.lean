import Aesd.Lib.CriticalSections

set_option relaxedAutoImplicit false
set_option autoImplicit false

/-!
# Critical sections as atomic operations

If a critical section that runs alone and gives the mutex back does to the shared state what one
operation of a sequential specification does, then every interleaving of the threads is a sequence
of such operations, one for each critical section that was left, in the order in which the mutex was
taken. At most one critical section is left over: one that still holds the mutex at the end.

## Main definitions

* `CriticalSections.Protocol.Alone` — the steps of one thread alone.
* `CriticalSections.Linearized` — what a run has done, as operations of the specification.

## Main results

* `CriticalSections.Protocol.linearize` — every run is linearized.
-/

namespace CriticalSections

open Transition

namespace Protocol

variable {ι γ σ ℓ : Type*} [DecidableEq ι] {M : Protocol ι γ σ ℓ}

variable (M) in
/-- The steps of one thread, while no other thread changes what they share. -/
def Alone (i : ι) (x : γ × σ) (l : ℓ) (y : γ × σ) : Prop := M.step i x.1 x.2 l y.1 y.2

variable {ls : List (ι × ℓ)} {i : ι} {t u : Threads ι γ σ}

/-- A run of one thread is a run of the thread alone, and leaves the others. -/
lemma run_alone (h : Run M.Step t ls u) (hi : ∀ l ∈ ls, l.1 = i) :
    Run (M.Alone i) (t.shared, t.loc i) (ls.map Prod.snd) (u.shared, u.loc i) ∧
      ∀ j ≠ i, u.loc j = t.loc j := by
  induction h with
  | nil => exact ⟨.nil, fun _ _ => rfl⟩
  | @snoc ls l v w _ hstep ih =>
    obtain ⟨hrun, hothers⟩ := ih fun l hl => hi l (List.mem_append_left _ hl)
    obtain rfl : l.1 = i := hi l (by simp)
    refine ⟨?_, fun j hj => ?_⟩
    · obtain ⟨g, s, hthread, rfl⟩ := hstep
      rw [List.map_append, List.map_singleton]
      refine hrun.snoc ?_
      simp only [Alone, Function.update_self]
      exact hthread
    · rw [hstep.loc_of_ne hj]
      exact hothers j hj

end Protocol

variable {ι γ σ ℓ τ ω : Type*} [DecidableEq ι]

/-- What the threads in `order` have done, from the specification state `d` on: those in `finished`
have each done one operation, and at most one more is in its critical section. `R` relates the
shared state to that of the specification, `Ready` tells with which local states a thread takes the
mutex, and `result` names the operation a thread has done. -/
structure Linearized (M : Protocol ι γ σ ℓ) (spec : τ → ω → τ → Prop) (R : γ → τ → Prop)
    (Ready : ι → σ → Prop) (result : ι → σ → ω) (d : τ) (order : List ι) (u : Threads ι γ σ)
    (finished rest : List ι) (d' : τ) : Prop where
  order_eq : order = finished ++ rest
  length_le : rest.length ≤ 1
  run : Run spec d (finished.map fun i => result i (u.loc i)) d'
  related : rest = [] → R u.shared d'
  pending : ∀ i ∈ rest, M.holder u.shared ≠ none ∧ ∃ g s k ks, R g d' ∧ Ready i s ∧
    M.isLock k = true ∧ Run (M.Alone i) (g, s) (k :: ks) (u.shared, u.loc i)

namespace Protocol

variable {M : Protocol ι γ σ ℓ} {spec : τ → ω → τ → Prop} {R : γ → τ → Prop} {Ready : ι → σ → Prop}
  {result : ι → σ → ω} {ls : List (ι × ℓ)} {t u v : Threads ι γ σ} {d : τ}

/-- **The critical sections one after the other.**

**Proof sketch.** Induction on the order. A critical section that gives the mutex back does one
operation; after one that does not, no other thread takes the mutex. -/
lemma linearize_sections {order : List ι} (hnodup : order.Nodup)
    (hcons : ∀ i ∈ order, ∃ k ks, sectionOf M.isLock ls i = (i, k) :: ks ∧ M.isLock k = true)
    (hsection : ∀ i g s d k ks g' s', R g d → Ready i s → M.isLock k = true →
      Run (M.Alone i) (g, s) (k :: ks) (g', s') → M.holder g' = none →
      ∃ d', spec d (result i s') d' ∧ R g' d')
    (hready : ∀ i ∈ order, Ready i (v.loc i)) (hR : R v.shared d)
    (h : Run M.Step v (order.flatMap (sectionOf M.isLock ls)) u) :
    ∃ finished rest d', Linearized M spec R Ready result d order u finished rest d' := by
  induction order generalizing v d with
  | nil =>
    obtain rfl : u = v := Run.eq_of_nil h
    exact ⟨[], [], d, rfl, by simp, .nil, fun _ => hR, by simp⟩
  | cons i order ih =>
    obtain ⟨hi, hnodup⟩ := List.nodup_cons.mp hnodup
    rw [List.flatMap_cons] at h
    obtain ⟨w, hself, hrest⟩ := h.split
    obtain ⟨hrun, hothers⟩ := run_alone hself fun l hl => fst_of_mem_sectionOf hl
    obtain ⟨k, ks, hks, hlock⟩ := hcons i List.mem_cons_self
    rw [hks, List.map_cons] at hrun
    have hreadyi := hready i List.mem_cons_self
    have hlater : ∀ l ∈ order.flatMap (sectionOf M.isLock ls), l.1 ≠ i := by
      intro l hl heq
      obtain ⟨j, hj, hl⟩ := List.mem_flatMap.mp hl
      rw [fst_of_mem_sectionOf hl] at heq
      exact hi (heq ▸ hj)
    have hloc := loc_of_run hrest hlater
    by_cases hfree : M.holder w.shared = none
    · obtain ⟨d₁, hspec, hR₁⟩ := hsection i _ _ d k _ _ _ hR hreadyi hlock hrun hfree
      have hreadyw : ∀ j ∈ order, Ready j (w.loc j) := by
        intro j hj
        rw [hothers j fun heq => hi (heq ▸ hj)]
        exact hready j (List.mem_cons_of_mem _ hj)
      obtain ⟨finished, rest, d', hlin⟩ := ih hnodup
        (fun j hj => hcons j (List.mem_cons_of_mem _ hj)) hreadyw hR₁ hrest
      refine ⟨i :: finished, rest, d', ?_, hlin.length_le, ?_, hlin.related, hlin.pending⟩
      · rw [hlin.order_eq, List.cons_append]
      · rw [List.map_cons, hloc, ← List.singleton_append]
        exact (Run.single hspec).append hlin.run
    · -- the mutex is still held, so no other critical section has started
      have hlast : order = [] := by
        cases order with
        | nil => rfl
        | cons j order =>
          obtain ⟨k', ks', hks', hlock'⟩ := hcons j (by simp)
          rw [List.flatMap_cons, hks', List.cons_append] at hrest
          obtain ⟨x, ⟨g, s, hstep, -⟩, -⟩ := hrest.uncons
          exact absurd (M.lock_step hstep hlock').2.2.1 hfree
      rw [hlast, List.flatMap_nil] at hrest
      obtain rfl := hrest.eq_of_nil
      refine ⟨[], [i], d, by rw [hlast]; rfl, by simp, .nil, by simp, fun j hj => ?_⟩
      obtain rfl := List.mem_singleton.mp hj
      exact ⟨hfree, _, _, k, _, hR, hreadyi, hlock, hrun⟩

/-- **Every run is linearized**: it has done one operation of the specification for each critical
section that was left, in the order in which the mutex was taken, and at most one thread still holds
the mutex. The threads that have not taken it are as they were before the critical sections. -/
theorem linearize (ht : ∀ i, M.phase (t.loc i) ≠ .inside)
    (hready : ∀ v, Run M.Step t (preparation M.isLock [] ls) v → ∀ i, Ready i (v.loc i))
    (hsection : ∀ i g s d k ks g' s', R g d → Ready i s → M.isLock k = true →
      Run (M.Alone i) (g, s) (k :: ks) (g', s') → M.holder g' = none →
      ∃ d', spec d (result i s') d' ∧ R g' d')
    (hR : R t.shared d) (h : Run M.Step t ls u) :
    (∀ i ∉ order M.isLock ls, Ready i (u.loc i)) ∧ ∃ finished rest d',
      Linearized M spec R Ready result d (order M.isLock ls) u finished rest d' := by
  obtain ⟨v, hprep, hsections⟩ := serialize ht h
  obtain ⟨hshared, -⟩ := run_before ht hprep fun l hl => not_lock_of_mem_preparation hl
  refine ⟨fun i hi => ?_, linearize_sections (exclusive_of_run ht h).nodup
    (fun i hi => exists_sectionOf_cons hi) hsection (fun i _ => hready v hprep i) (hshared ▸ hR)
    hsections⟩
  rw [loc_of_run hsections fun l hl heq => ?_]
  · exact hready v hprep i
  · obtain ⟨j, hj, hl⟩ := List.mem_flatMap.mp hl
    rw [fst_of_mem_sectionOf hl] at heq
    exact hi (heq ▸ hj)

end Protocol

end CriticalSections
