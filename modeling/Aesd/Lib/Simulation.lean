import Aesd.Lib.Run

set_option relaxedAutoImplicit false
set_option autoImplicit false

/-!
# Simulations

One transition system simulates another, as far as an observer of its labels can tell, if every
step of the other can be matched by a step with the observed label. If each simulates the other
through one relation of the states, they have the same traces.

## Main definitions

* `Transition.Simulates` — every step of the implementation is matched by one of the specification.
* `Transition.Realises` — every step of the specification is matched by one of the implementation.

## Main results

* `Transition.Simulates.run`, `Transition.Realises.run` — the same for runs.
* `Transition.traces_iff` — the traces of both are the same.
-/

namespace Transition

variable {σ τ ℓ ω : Type*} {step : σ → ℓ → σ → Prop} {spec : τ → ω → τ → Prop} {obs : ℓ → ω}
  {R : σ → τ → Prop}

/-- From related states every step of the implementation is matched by a step of the specification
with the label observed. -/
def Simulates (step : σ → ℓ → σ → Prop) (spec : τ → ω → τ → Prop) (obs : ℓ → ω)
    (R : σ → τ → Prop) : Prop :=
  ∀ s l s' a, R s a → step s l s' → ∃ a', spec a (obs l) a' ∧ R s' a'

/-- From related states every step of the specification is one the implementation can make. -/
def Realises (step : σ → ℓ → σ → Prop) (spec : τ → ω → τ → Prop) (obs : ℓ → ω)
    (R : σ → τ → Prop) : Prop :=
  ∀ s a o a', R s a → spec a o a' → ∃ l s', obs l = o ∧ step s l s' ∧ R s' a'

/-- **Every run of the implementation is one of the specification**, as far as it is observed. -/
theorem Simulates.run (h : Simulates step spec obs R) {s s' : σ} {a : τ} {ls : List ℓ} (hR : R s a)
    (hrun : Run step s ls s') : ∃ a', Run spec a (ls.map obs) a' ∧ R s' a' := by
  induction hrun with
  | nil => exact ⟨a, .nil, hR⟩
  | @snoc ls l t u _ hl ih =>
    obtain ⟨b, hb, hRb⟩ := ih
    obtain ⟨c, hc, hRc⟩ := h _ _ _ _ hRb hl
    refine ⟨c, ?_, hRc⟩
    rw [List.map_append, List.map_singleton]
    exact hb.snoc hc

/-- **Every run of the specification is one the implementation can make.** -/
theorem Realises.run (h : Realises step spec obs R) {s : σ} {a a' : τ} {os : List ω} (hR : R s a)
    (hrun : Run spec a os a') : ∃ ls s', ls.map obs = os ∧ Run step s ls s' ∧ R s' a' := by
  induction hrun with
  | nil => exact ⟨[], s, rfl, .nil, hR⟩
  | @snoc os o b c _ ho ih =>
    obtain ⟨ls, t, rfl, hrun, hRt⟩ := ih
    obtain ⟨l, u, rfl, hl, hRu⟩ := h _ _ _ _ hRt ho
    exact ⟨ls ++ [l], u, by rw [List.map_append, List.map_singleton], hrun.snoc hl, hRu⟩

/-- **The traces of both are the same** from related states, if each simulates the other. -/
theorem traces_iff (hsim : Simulates step spec obs R) (hreal : Realises step spec obs R) {s : σ}
    {a : τ} (hR : R s a) (os : List ω) :
    (∃ ls s', Run step s ls s' ∧ ls.map obs = os) ↔ ∃ a', Run spec a os a' := by
  constructor
  · rintro ⟨ls, s', hrun, rfl⟩
    obtain ⟨a', ha', -⟩ := hsim.run hR hrun
    exact ⟨a', ha'⟩
  · rintro ⟨a', hrun⟩
    obtain ⟨ls, s', hobs, hrun, -⟩ := hreal.run hR hrun
    exact ⟨ls, s', hrun, hobs⟩

end Transition
