import Mathlib.Data.Nat.Notation
import Mathlib.Tactic.TypeStar
import Mathlib.Tactic.Lemma

set_option relaxedAutoImplicit false
set_option autoImplicit false

/-!
# Runs of a labelled transition system

A transition system is a relation `step t l u`: in state `t` the labelled step `l` leads to
state `u`. A *run* is a finite sequence of steps with the list of their labels. A step that a
call cannot finish (it blocks) has no successor, so a run only contains steps that returned.

## Main definitions

* `Transition.Run` — the runs from a state, with their labels.
* `Transition.guarded` — the steps that meet a condition on the state before and the label.

## Main results

* `Transition.Run.invariant` — what every step preserves holds in every state of a run.
* `Transition.Run.invariant_labels` — the same for a property of the state and of the labels
  seen so far.
* `Transition.Run.append`, `Transition.Run.split` — runs in sequence.
* `Transition.Run.length_le` — a run is no longer than a measure its steps decrease.
* `Transition.Run.exists_goal` — a run reaches a goal if steps that decrease a measure go on until
  then.
-/

namespace Transition

variable {σ ℓ : Type*} {step : σ → ℓ → σ → Prop}

/-- `Run step s ls t`: the steps labelled `ls`, in this order, lead from `s` to `t`. -/
inductive Run (step : σ → ℓ → σ → Prop) (s : σ) : List ℓ → σ → Prop
  | nil : Run step s [] s
  | snoc {ls : List ℓ} {l : ℓ} {t u : σ} :
      Run step s ls t → step t l u → Run step s (ls ++ [l]) u

/-- The steps of `step` whose state before and label meet `C`. -/
def guarded (C : σ → ℓ → Prop) (step : σ → ℓ → σ → Prop) : σ → ℓ → σ → Prop :=
  fun t l u => C t l ∧ step t l u

namespace Run

variable {s t u : σ} {ls : List ℓ}

/-- One step is a run. -/
lemma single {l : ℓ} (h : step s l t) : Run step s [l] t := by
  simpa using Run.nil.snoc h

/-- A property of the labels so far and of the state that holds at the start and that every
step keeps holds at the end of every run. -/
theorem invariant_labels {I : List ℓ → σ → Prop} (h0 : I [] s)
    (hstep : ∀ ls t l u, Run step s ls t → I ls t → step t l u → I (ls ++ [l]) u)
    (h : Run step s ls t) : I ls t := by
  induction h with
  | nil => exact h0
  | snoc hr hl ih => exact hstep _ _ _ _ hr ih hl

/-- A property that holds at the start and that every step preserves holds at the end of
every run. -/
theorem invariant {I : σ → Prop} (h0 : I s) (hstep : ∀ t l u, I t → step t l u → I u)
    (h : Run step s ls t) : I t :=
  h.invariant_labels (I := fun _ t => I t) h0 fun _ t l u _ ht hl => hstep t l u ht hl

/-- The image of a run under a map of the states that takes steps to steps. -/
lemma map {τ : Type*} {step' : τ → ℓ → τ → Prop} {f : σ → τ}
    (hf : ∀ t l u, step t l u → step' (f t) l (f u)) (h : Run step s ls t) :
    Run step' (f s) ls (f t) := by
  induction h with
  | nil => exact .nil
  | snoc _ hl ih => exact ih.snoc (hf _ _ _ hl)

/-- A run of a smaller relation is a run of a larger one. -/
lemma mono {step' : σ → ℓ → σ → Prop} (hle : ∀ t l u, step t l u → step' t l u)
    (h : Run step s ls t) : Run step' s ls t := by
  induction h with
  | nil => exact .nil
  | snoc _ hl ih => exact ih.snoc (hle _ _ _ hl)

/-- Forgetting the guard of a guarded run. -/
lemma of_guarded {C : σ → ℓ → Prop} (h : Run (guarded C step) s ls t) : Run step s ls t :=
  h.mono fun _ _ _ hl => hl.2

/-- A run whose labels meet a condition is one of the steps that do. -/
lemma guard {P : ℓ → Prop} (h : Run step s ls t) (hP : ∀ l ∈ ls, P l) :
    Run (guarded (fun _ l => P l) step) s ls t := by
  induction h with
  | nil => exact .nil
  | @snoc ls l t u _ hl ih =>
    refine (ih fun k hk => hP k (List.mem_append_left _ hk)).snoc ⟨hP l ?_, hl⟩
    exact List.mem_append_right _ List.mem_cons_self

/-- Two runs in sequence. -/
lemma append {ls' : List ℓ} (h : Run step s ls t) (h' : Run step t ls' u) :
    Run step s (ls ++ ls') u := by
  induction h' with
  | nil => simpa using h
  | snoc _ hl ih => simpa [← List.append_assoc] using ih.snoc hl

/-- A run in two parts. -/
lemma split {ls' : List ℓ} (h : Run step s (ls ++ ls') u) :
    ∃ t, Run step s ls t ∧ Run step t ls' u := by
  generalize hks : ls ++ ls' = ks at h
  induction h generalizing ls' with
  | nil =>
    obtain ⟨rfl, rfl⟩ := List.append_eq_nil_iff.mp hks
    exact ⟨s, .nil, .nil⟩
  | @snoc ks l t u hrun hstep ih =>
    rcases List.eq_nil_or_concat ls' with rfl | ⟨ls', k, rfl⟩
    · rw [List.append_nil] at hks
      exact ⟨u, hks ▸ hrun.snoc hstep, .nil⟩
    · rw [List.concat_eq_append, ← List.append_assoc] at hks
      obtain ⟨hinit, hlast⟩ := List.append_inj' hks rfl
      obtain rfl := List.singleton_inj.mp hlast
      obtain ⟨v, hv, hrest⟩ := ih hinit
      rw [List.concat_eq_append]
      exact ⟨v, hv, hrest.snoc hstep⟩

/-- A run without a step ends where it starts. -/
lemma eq_of_nil (h : Run step s [] t) : t = s := by
  generalize hk : [] = ks at h
  cases h with
  | nil => rfl
  | snoc => simp at hk

/-- A run that has steps starts with the first of them. -/
lemma uncons {l : ℓ} (h : Run step s (l :: ls) u) : ∃ t, step s l t ∧ Run step t ls u := by
  rw [← List.singleton_append] at h
  obtain ⟨t, hfirst, hrest⟩ := h.split
  refine ⟨t, ?_, hrest⟩
  generalize hk : [l] = ks at hfirst
  cases hfirst with
  | nil => exact absurd hk (List.cons_ne_nil _ _)
  | @snoc ks k v _ hrun hstep =>
    rw [← List.nil_append [l]] at hk
    obtain ⟨rfl, hl⟩ := List.append_inj' hk rfl
    obtain rfl := List.singleton_inj.mp hl
    obtain rfl := hrun.eq_of_nil
    exact hstep

/-- The steps of a function, from the labels in order, are a run. -/
lemma of_foldlM {f : σ → ℓ → Option σ} (hf : ∀ s l t, f s l = some t → step s l t)
    (h : ls.foldlM f s = some t) : Run step s ls t := by
  induction ls generalizing s with
  | nil =>
    obtain rfl := Option.some.inj h
    exact .nil
  | cons l ls ih =>
    rw [List.foldlM_cons] at h
    obtain ⟨u, hu, h⟩ := Option.bind_eq_some_iff.mp h
    exact (single (hf _ _ _ hu)).append (ih h)

/-- If every step from a state with the invariant `I` keeps `I` and decreases `m`, a run is at
most as long as the measure of its first state. -/
theorem length_le {I : σ → Prop} {m : σ → ℕ} (h0 : I s)
    (hstep : ∀ t l u, I t → step t l u → I u ∧ m u < m t) (h : Run step s ls t) :
    ls.length + m t ≤ m s := by
  have hI : I t ∧ ls.length + m t ≤ m s := by
    refine h.invariant_labels (I := fun ls t => I t ∧ ls.length + m t ≤ m s)
      ⟨h0, by simp⟩ fun ls t l u _ ⟨ht, hm⟩ hl => ?_
    obtain ⟨hu, hlt⟩ := hstep t l u ht hl
    refine ⟨hu, ?_⟩
    simp only [List.length_append, List.length_singleton]
    omega
  exact hI.2

/-- If from every state with the invariant `I` that is not a goal some step keeps `I` and
decreases `m`, a run reaches a goal. -/
theorem exists_goal {I Q : σ → Prop} {m : σ → ℕ}
    (hstep : ∀ t, I t → ¬Q t → ∃ l u, step t l u ∧ I u ∧ m u < m t) (h0 : I s) :
    ∃ ls t, Run step s ls t ∧ I t ∧ Q t := by
  induction hm : m s using Nat.strongRecOn generalizing s with
  | _ k ih =>
    by_cases hQ : Q s
    · exact ⟨[], s, .nil, h0, hQ⟩
    · obtain ⟨l, u, hl, hu, hlt⟩ := hstep s h0 hQ
      obtain ⟨ls, t, hrun, ht, hQt⟩ := ih _ (hm ▸ hlt) hu rfl
      exact ⟨[l] ++ ls, t, (single hl).append hrun, ht, hQt⟩

end Run

end Transition
