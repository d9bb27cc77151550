import Aesd.Lib.Run
import Mathlib.Data.List.Basic
import Mathlib.Data.List.Count
import Mathlib.Data.List.Nodup
import Mathlib.Data.List.TakeWhile
import Mathlib.Logic.Function.Basic

set_option relaxedAutoImplicit false
set_option autoImplicit false

/-!
# Critical sections under one mutex

Threads that share a state and protect it by one mutex: before a thread takes the mutex its steps
neither read nor change the shared state, and after it has left its critical section it takes no
step. Every run, however the steps of the threads are interleaved, then ends in the same state as a
serial one: first all steps before the critical sections, and then the critical sections one after
the other, in the order in which the mutex was taken.

No step needs to succeed for this. A thread may leave its critical section without giving the mutex
back, in which case no other thread enters one.

## Main definitions

* `CriticalSections.Protocol` — threads with one mutex.
* `CriticalSections.order` — the threads in the order in which they took the mutex.
* `CriticalSections.preparation`, `CriticalSections.sectionOf` — the steps before the critical
  sections, and those of one critical section.

## Main results

* `CriticalSections.Protocol.Step.swap` — a step before the critical section of its thread moves in
  front of the steps of other threads.
* `CriticalSections.Protocol.serialize` — the serial run.
* `CriticalSections.Protocol.exists_section` — the critical section of one thread in it.
* `CriticalSections.Protocol.serial_perm` — the serial run has the steps of the run, each thread's
  own ones in their order.
-/

namespace CriticalSections

open Transition

/-! ## The labels of a serial run -/

section Labels

variable {ι ℓ : Type*} (isLock : ℓ → Bool)

/-- The threads in the order in which they took the mutex. -/
def order (ls : List (ι × ℓ)) : List ι :=
  ls.filterMap fun l => if isLock l.2 then some l.1 else none

variable [DecidableEq ι]

/-- The steps that threads take before they take the mutex; the threads in `locked` have it already.
-/
def preparation : List ι → List (ι × ℓ) → List (ι × ℓ)
  | _, [] => []
  | locked, l :: ls =>
    if l.1 ∈ locked then preparation locked ls
    else if isLock l.2 then preparation (l.1 :: locked) ls
    else l :: preparation locked ls

/-- The steps of a thread from the one that takes the mutex on. -/
def sectionOf (ls : List (ι × ℓ)) (i : ι) : List (ι × ℓ) :=
  (ls.filter fun l => l.1 = i).dropWhile fun l => !isLock l.2

/-- The critical sections one after the other. -/
def sections (ls : List (ι × ℓ)) : List (ι × ℓ) := (order isLock ls).flatMap (sectionOf isLock ls)

variable {isLock} {ls : List (ι × ℓ)} {l : ι × ℓ} {i : ι}

omit [DecidableEq ι] in
/-- The order grows at the end. -/
lemma order_append (ls ls' : List (ι × ℓ)) :
    order isLock (ls ++ ls') = order isLock ls ++ order isLock ls' :=
  List.filterMap_append

omit [DecidableEq ι] in
/-- A step that takes the mutex. -/
lemma order_lock (h : isLock l.2 = true) : order isLock [l] = [l.1] := by
  simp [order, h]

omit [DecidableEq ι] in
/-- A step that does not. -/
lemma order_of_not_lock (h : isLock l.2 = false) : order isLock [l] = [] := by
  simp [order, h]

omit [DecidableEq ι] in
/-- A thread is in the order exactly if one of its steps takes the mutex. -/
lemma mem_order_iff : i ∈ order isLock ls ↔ ∃ l ∈ ls, l.1 = i ∧ isLock l.2 = true := by
  simp only [order, List.mem_filterMap, Option.ite_none_right_eq_some, Option.some.injEq]
  exact ⟨fun ⟨l, hl, hk, hi⟩ => ⟨l, hl, hi, hk⟩, fun ⟨l, hl, hi, hk⟩ => ⟨l, hl, hk, hi⟩⟩

/-- The steps of a critical section are steps of its thread. -/
lemma fst_of_mem_sectionOf (h : l ∈ sectionOf isLock ls i) : l.1 = i := by
  have hmem := (List.dropWhile_sublist _).subset h
  simpa using (List.mem_filter.mp hmem).2

/-- No step of the preparation takes the mutex. -/
lemma not_lock_of_mem_preparation {locked : List ι} (h : l ∈ preparation isLock locked ls) :
    isLock l.2 = false := by
  induction ls generalizing locked with
  | nil => exact absurd h List.not_mem_nil
  | cons k ls ih =>
    rw [preparation] at h
    split_ifs at h with hmem hlock
    · exact ih h
    · exact ih h
    · rcases List.mem_cons.mp h with rfl | h
      · exact Bool.eq_false_iff.mpr hlock
      · exact ih h

/-- The critical section of a thread that took the mutex starts with the step that took it. -/
lemma exists_sectionOf_cons (h : i ∈ order isLock ls) :
    ∃ k ks, sectionOf isLock ls i = (i, k) :: ks ∧ isLock k = true := by
  obtain ⟨l, hl, hi, hlock⟩ := mem_order_iff.mp h
  have hfind := (ls.filter fun k => k.1 = i).find?_eq_head?_dropWhile_not fun k => isLock k.2
  obtain ⟨k, hk⟩ : ∃ k, (ls.filter fun k => k.1 = i).find? (fun k => isLock k.2) = some k := by
    rw [← Option.isSome_iff_exists, List.find?_isSome]
    exact ⟨l, List.mem_filter.mpr ⟨hl, decide_eq_true hi⟩, hlock⟩
  rw [hk] at hfind
  obtain ⟨ks, hks⟩ : ∃ ks, sectionOf isLock ls i = k :: ks := List.head?_eq_some_iff.mp hfind.symm
  have hfirst : k ∈ sectionOf isLock ls i := by
    rw [hks]
    exact List.mem_cons_self
  have hself : k.1 = i := fst_of_mem_sectionOf hfirst
  have hlock : isLock k.2 = true := by simpa using List.find?_some hk
  exact ⟨k.2, ks, by rw [hks, ← hself], hlock⟩

/-- One more step of another thread leaves a critical section alone. -/
lemma sectionOf_append_of_ne (ls : List (ι × ℓ)) (h : i ≠ l.1) :
    sectionOf isLock (ls ++ [l]) i = sectionOf isLock ls i := by
  have hne : ¬l.1 = i := fun heq => h heq.symm
  rw [sectionOf, sectionOf, List.filter_append, List.filter_singleton]
  simp [hne]

/-- Until the thread takes the mutex its critical section is empty. -/
lemma sectionOf_eq_nil (h : i ∉ order isLock ls) : sectionOf isLock ls i = [] := by
  rw [sectionOf, List.dropWhile_eq_nil_iff]
  intro l hl
  obtain ⟨hmem, hi⟩ := List.mem_filter.mp hl
  cases hk : isLock l.2 with
  | false => rfl
  | true => exact absurd (mem_order_iff.mpr ⟨l, hmem, of_decide_eq_true hi, hk⟩) h

/-- The critical section starts with the step that takes the mutex. -/
lemma sectionOf_append_lock (h : l.1 ∉ order isLock ls) (hk : isLock l.2 = true) :
    sectionOf isLock (ls ++ [l]) l.1 = [l] := by
  have hnil : (ls.filter fun k => k.1 = l.1).dropWhile (fun k => !isLock k.2) = [] :=
    sectionOf_eq_nil h
  have hlast : [l].filter (fun k => k.1 = l.1) = [l] := by simp
  rw [sectionOf, List.filter_append, List.dropWhile_append, hnil, hlast, List.dropWhile_cons]
  simp [hk]

/-- A step after it belongs to the critical section. -/
lemma sectionOf_append_self (h : l.1 ∈ order isLock ls) :
    sectionOf isLock (ls ++ [l]) l.1 = sectionOf isLock ls l.1 ++ [l] := by
  obtain ⟨k, hk, hi, hlock⟩ := mem_order_iff.mp h
  have hne : (ls.filter fun k => k.1 = l.1).dropWhile (fun k => !isLock k.2) ≠ [] := by
    rw [Ne, List.dropWhile_eq_nil_iff]
    intro hall
    have hlast := hall k (List.mem_filter.mpr ⟨hk, decide_eq_true hi⟩)
    simp [hlock] at hlast
  have hlast : [l].filter (fun k => k.1 = l.1) = [l] := by simp
  rw [sectionOf, sectionOf, List.filter_append, List.dropWhile_append, hlast]
  simp [hne]

/-- One more step of the preparation. -/
lemma preparation_append (locked : List ι) (ls : List (ι × ℓ)) (l : ι × ℓ) :
    preparation isLock locked (ls ++ [l]) = preparation isLock locked ls ++
      if l.1 ∈ locked ∨ l.1 ∈ order isLock ls ∨ isLock l.2 = true then [] else [l] := by
  induction ls generalizing locked with
  | nil =>
    simp only [List.nil_append, preparation, order, List.filterMap_nil, List.not_mem_nil, false_or]
    split_ifs <;> simp_all
  | cons k ls ih =>
    have horder : order isLock (k :: ls) = order isLock [k] ++ order isLock ls :=
      order_append [k] ls
    rw [horder]
    simp only [List.cons_append, preparation, ih]
    by_cases hmem : k.1 ∈ locked
    · rw [if_pos hmem, if_pos hmem]
      cases hlock : isLock k.2 with
      | false => rw [order_of_not_lock hlock, List.nil_append]
      | true =>
        have hiff : l.1 ∈ locked ∨ l.1 ∈ order isLock ls ∨ isLock l.2 = true ↔
            l.1 ∈ locked ∨ l.1 ∈ k.1 :: order isLock ls ∨ isLock l.2 = true := by
          rw [List.mem_cons]
          refine ⟨by tauto, ?_⟩
          rintro (h | (h | h) | h)
          · exact .inl h
          · exact .inl (h ▸ hmem)
          · exact .inr (.inl h)
          · exact .inr (.inr h)
        rw [order_lock hlock, List.singleton_append, if_congr hiff rfl rfl]
    · rw [if_neg hmem, if_neg hmem]
      cases hlock : isLock k.2 with
      | false => simp [order_of_not_lock hlock]
      | true =>
        have hiff : l.1 ∈ k.1 :: locked ∨ l.1 ∈ order isLock ls ∨ isLock l.2 = true ↔
            l.1 ∈ locked ∨ l.1 ∈ k.1 :: order isLock ls ∨ isLock l.2 = true := by
          rw [List.mem_cons, List.mem_cons]
          tauto
        rw [if_pos rfl, if_pos rfl, order_lock hlock, List.singleton_append, if_congr hiff rfl rfl]

/-- The critical sections of threads other than that of the last step. -/
lemma flatMap_sectionOf_append {is : List ι} (h : l.1 ∉ is) :
    is.flatMap (sectionOf isLock (ls ++ [l])) = is.flatMap (sectionOf isLock ls) :=
  List.flatMap_congr fun _ hi => sectionOf_append_of_ne ls fun heq => h (heq ▸ hi)

/-- The steps of a thread in the preparation are its steps until it takes the mutex. -/
lemma filter_preparation (locked : List ι) (ls : List (ι × ℓ)) (i : ι) :
    (preparation isLock locked ls).filter (fun l => l.1 = i) =
      if i ∈ locked then [] else (ls.filter fun l => l.1 = i).takeWhile fun l => !isLock l.2 := by
  induction ls generalizing locked with
  | nil => simp [preparation]
  | cons l ls ih =>
    rw [preparation, List.filter_cons]
    by_cases hi : l.1 = i
    · subst hi
      rw [if_pos (decide_eq_true rfl), List.takeWhile_cons]
      by_cases hmem : l.1 ∈ locked
      · rw [if_pos hmem, if_pos hmem, ih, if_pos hmem]
      · rw [if_neg hmem, if_neg hmem]
        cases hlock : isLock l.2 with
        | true => simp [ih]
        | false => simp [ih, hmem]
    · have hdec : ¬decide (l.1 = i) = true := fun h => hi (of_decide_eq_true h)
      rw [if_neg hdec]
      by_cases hmem : l.1 ∈ locked
      · rw [if_pos hmem, ih]
      · rw [if_neg hmem]
        cases hlock : isLock l.2 with
        | true => simp [ih, Ne.symm hi]
        | false => simp [ih, hi]

/-- The steps of a thread in critical sections are those of its own one. -/
lemma filter_flatMap_sectionOf {is : List ι} (hnodup : is.Nodup) (ls : List (ι × ℓ)) (i : ι) :
    (is.flatMap (sectionOf isLock ls)).filter (fun l => l.1 = i) =
      if i ∈ is then sectionOf isLock ls i else [] := by
  have hown : ∀ j, (sectionOf isLock ls j).filter (fun l => l.1 = i) =
      if i = j then sectionOf isLock ls i else [] := by
    intro j
    split_ifs with hj
    · subst hj
      exact List.filter_eq_self.mpr fun l hl => decide_eq_true (fst_of_mem_sectionOf hl)
    · refine List.filter_eq_nil_iff.mpr fun l hl heq => hj ?_
      rw [← of_decide_eq_true heq, fst_of_mem_sectionOf hl]
  induction is with
  | nil => rfl
  | cons j is ih =>
    obtain ⟨hj, his⟩ := List.nodup_cons.mp hnodup
    rw [List.flatMap_cons, List.filter_append, hown, ih his]
    by_cases hi : i = j
    · subst hi
      simp [hj]
    · simp [hi]

end Labels

/-! ## Threads -/

/-- The local states of threads, and what they share. -/
structure Threads (ι γ σ : Type*) where
  shared : γ
  loc : ι → σ

/-- Where a thread is with respect to its critical section. -/
inductive Phase where
  | before
  | inside
  | after
deriving DecidableEq

/-- Threads with one mutex: the steps of a thread, those of them that take the mutex, where a thread
is, and who holds the mutex, with what makes it a mutex. -/
structure Protocol (ι γ σ ℓ : Type*) where
  step : ι → γ → σ → ℓ → γ → σ → Prop
  isLock : ℓ → Bool
  phase : σ → Phase
  holder : γ → Option ι
  before_step : ∀ {i g s l g' s'}, step i g s l g' s' → phase s = .before → isLock l = false →
    g' = g ∧ phase s' ≠ .inside ∧ ∀ h, step i h s l h s'
  lock_step : ∀ {i g s l g' s'}, step i g s l g' s' → isLock l = true →
    phase s = .before ∧ phase s' = .inside ∧ holder g = none ∧ holder g' = some i
  inside_step : ∀ {i g s l g' s'}, step i g s l g' s' → phase s = .inside →
    phase s' ≠ .before ∧ (phase s' = .inside → holder g' = holder g)
  after_step : ∀ {i g s l g' s'}, step i g s l g' s' → phase s ≠ .after

namespace Protocol

variable {ι γ σ ℓ : Type*} [DecidableEq ι] (M : Protocol ι γ σ ℓ)

/-- One step of one thread. -/
def Step (t : Threads ι γ σ) (l : ι × ℓ) (u : Threads ι γ σ) : Prop :=
  ∃ g s, M.step l.1 t.shared (t.loc l.1) l.2 g s ∧ u = ⟨g, Function.update t.loc l.1 s⟩

variable {M} {ls : List (ι × ℓ)} {l : ι × ℓ} {i : ι} {t u v : Threads ι γ σ}

/-! ## Steps of different threads -/

/-- A step leaves the other threads where they are. -/
lemma Step.loc_of_ne (h : M.Step t l u) (hi : i ≠ l.1) : u.loc i = t.loc i := by
  obtain ⟨g, s, -, rfl⟩ := h
  exact Function.update_of_ne hi _ _

/-- A run without steps of a thread leaves it where it is. -/
lemma loc_of_run (h : Run M.Step t ls u) (hi : ∀ l ∈ ls, l.1 ≠ i) : u.loc i = t.loc i := by
  induction h with
  | nil => rfl
  | @snoc ls l v w _ hstep ih =>
    rw [hstep.loc_of_ne (hi l (by simp)).symm]
    exact ih fun l hl => hi l (List.mem_append_left _ hl)

/-- **A step before a critical section commutes** with the step of another thread in front of it.

**Proof sketch.** It does not depend on what the threads share and does not change it, so it can be
taken first; the two steps change different threads. -/
lemma Step.swap {k : ℓ} (h : M.Step t l u) (hi : i ≠ l.1) (hbefore : M.phase (t.loc i) = .before)
    (hk : M.isLock k = false) (h' : M.Step u (i, k) v) :
    ∃ w, M.Step t (i, k) w ∧ M.Step w l v := by
  have hloc : u.loc i = t.loc i := h.loc_of_ne hi
  obtain ⟨g, s, hstep, rfl⟩ := h
  obtain ⟨g', s', hstep', rfl⟩ := h'
  simp only at hstep' hloc
  rw [hloc] at hstep'
  obtain ⟨rfl, -, hany⟩ := M.before_step hstep' hbefore hk
  refine ⟨⟨t.shared, Function.update t.loc i s'⟩, ⟨_, s', hany t.shared, rfl⟩, g', s, ?_, ?_⟩
  · simp only [Function.update_of_ne hi.symm]
    exact hstep
  · rw [Function.update_comm hi.symm]

/-- A step before a critical section commutes with a run of other threads in front of it. -/
lemma swap_run {k : ℓ} (h : Run M.Step t ls u) (hi : ∀ l ∈ ls, l.1 ≠ i)
    (hbefore : M.phase (t.loc i) = .before) (hk : M.isLock k = false) (h' : M.Step u (i, k) v) :
    ∃ w, M.Step t (i, k) w ∧ Run M.Step w ls v := by
  induction h generalizing v with
  | nil => exact ⟨v, h', .nil⟩
  | @snoc ls l u₁ u₂ hrun hstep ih =>
    have hi' : ∀ l ∈ ls, l.1 ≠ i := fun l hl => hi l (List.mem_append_left _ hl)
    have hloc := loc_of_run hrun hi'
    obtain ⟨w₁, hw₁, hlast⟩ := hstep.swap (hi l (by simp)).symm (by rw [hloc, hbefore]) hk h'
    obtain ⟨w, hw, hrun'⟩ := ih hi' hw₁
    exact ⟨w, hw, hrun'.snoc hlast⟩

/-! ## The serial run -/

variable (M) in
/-- What a run from threads outside their critical sections keeps: only the holder of the mutex is
inside, and it is the last one in the order; the threads in the order are not before their critical
sections, and the others not inside. -/
structure Exclusive (ls : List (ι × ℓ)) (t : Threads ι γ σ) : Prop where
  nodup : (order M.isLock ls).Nodup
  holder_eq : ∀ i, M.phase (t.loc i) = .inside → M.holder t.shared = some i
  last : ∀ i, M.phase (t.loc i) = .inside → ∃ pre, order M.isLock ls = pre ++ [i]
  entered : ∀ i ∈ order M.isLock ls, M.phase (t.loc i) ≠ .before

/-- A thread that is inside after a step was inside before it, or made the step. -/
lemma Exclusive.inside_cases (ht : M.Exclusive ls t) (h : M.Step t l u)
    (hi : M.phase (u.loc i) = .inside) : i = l.1 ∨ M.holder t.shared = some i ∧ i ≠ l.1 := by
  rcases eq_or_ne i l.1 with heq | hne
  · exact .inl heq
  · rw [h.loc_of_ne hne] at hi
    exact .inr ⟨ht.holder_eq i hi, hne⟩

/-- **One step keeps the exclusion.**

**Proof sketch.** The step that takes the mutex finds it free, so that no thread is inside; the
steps inside are those of the holder. -/
lemma Exclusive.step (ht : M.Exclusive ls t) (h : M.Step t l u) : M.Exclusive (ls ++ [l]) u := by
  have hcases := fun i => ht.inside_cases (i := i) h
  have hother : ∀ i, i ≠ l.1 → u.loc i = t.loc i := fun i hi => h.loc_of_ne hi
  obtain ⟨g, s, hstep, hu⟩ := h
  have hshared : u.shared = g := by rw [hu]
  have hself : u.loc l.1 = s := by
    rw [hu]
    exact Function.update_self _ _ _
  cases hlock : M.isLock l.2 with
  | true =>
    obtain ⟨hbefore, hinside, hnone, hholder⟩ := M.lock_step hstep hlock
    have hnew : l.1 ∉ order M.isLock ls := fun hmem => ht.entered _ hmem hbefore
    have horder : order M.isLock (ls ++ [l]) = order M.isLock ls ++ [l.1] := by
      rw [order_append, order_lock hlock]
    have honly : ∀ i, M.phase (u.loc i) = .inside → i = l.1 := by
      intro i hi
      rcases hcases i hi with heq | ⟨hsome, -⟩
      · exact heq
      · exact absurd (hsome.symm.trans hnone) (by simp)
    refine ⟨?_, fun i hi => ?_, fun i hi => ?_, fun i hi => ?_⟩
    · rw [horder, ← List.concat_eq_append]
      exact ht.nodup.concat hnew
    · rw [honly i hi, hshared]
      exact hholder
    · exact ⟨order M.isLock ls, by rw [horder, honly i hi]⟩
    · rcases eq_or_ne i l.1 with rfl | hne
      · rw [hself, hinside]
        simp
      · rw [hother i hne]
        refine ht.entered i ?_
        simpa [horder, hne] using hi
  | false =>
    have horder : order M.isLock (ls ++ [l]) = order M.isLock ls := by
      rw [order_append, order_of_not_lock hlock, List.append_nil]
    cases hphase : M.phase (t.loc l.1) with
    | before =>
      obtain ⟨rfl, hnot, -⟩ := M.before_step hstep hphase hlock
      have hnew : l.1 ∉ order M.isLock ls := fun hmem => ht.entered _ hmem hphase
      have hne : ∀ i, M.phase (u.loc i) = .inside → i ≠ l.1 := by
        rintro i hi rfl
        rw [hself] at hi
        exact hnot hi
      refine ⟨horder ▸ ht.nodup, fun i hi => ?_, fun i hi => ?_, fun i hi => ?_⟩
      · have hold := hother i (hne i hi)
        rw [hshared]
        exact ht.holder_eq i (hold ▸ hi)
      · have hold := hother i (hne i hi)
        rw [horder]
        exact ht.last i (hold ▸ hi)
      · rw [horder] at hi
        rw [hother i fun heq => hnew (heq ▸ hi)]
        exact ht.entered i hi
    | inside =>
      obtain ⟨hnot, hkeep⟩ := M.inside_step hstep hphase
      have hholder := ht.holder_eq _ hphase
      have honly : ∀ i, M.phase (u.loc i) = .inside → i = l.1 := by
        intro i hi
        rcases hcases i hi with heq | ⟨hsome, -⟩
        · exact heq
        · exact Option.some.inj (hsome.symm.trans hholder)
      refine ⟨horder ▸ ht.nodup, fun i hi => ?_, fun i hi => ?_, fun i hi => ?_⟩
      · obtain rfl := honly i hi
        rw [hself] at hi
        rw [hshared, hkeep hi]
        exact hholder
      · obtain rfl := honly i hi
        rw [horder]
        exact ht.last _ hphase
      · rcases eq_or_ne i l.1 with rfl | hne
        · rwa [hself]
        · rw [hother i hne]
          exact ht.entered i (horder ▸ hi)
    | after => exact absurd hphase (M.after_step hstep)

/-- Every run from threads outside their critical sections keeps the exclusion. -/
lemma exclusive_of_run (ht : ∀ i, M.phase (t.loc i) ≠ .inside) (h : Run M.Step t ls u) :
    M.Exclusive ls u := by
  have h0 : M.Exclusive [] t :=
    ⟨List.nodup_nil, fun i hi => absurd hi (ht i), fun i hi => absurd hi (ht i),
      fun _ hi => absurd hi List.not_mem_nil⟩
  exact h.invariant_labels h0 fun _ _ _ _ _ hv hstep => hv.step hstep

/-- A run in which no thread takes the mutex does not change what they share, and none comes into
its critical section. -/
lemma run_before (ht : ∀ i, M.phase (t.loc i) ≠ .inside) (h : Run M.Step t ls u)
    (hls : ∀ l ∈ ls, M.isLock l.2 = false) :
    u.shared = t.shared ∧ ∀ i, M.phase (u.loc i) ≠ .inside := by
  induction h with
  | nil => exact ⟨rfl, ht⟩
  | @snoc ls l v w _ hstep ih =>
    obtain ⟨hshared, hv⟩ := ih fun l hl => hls l (List.mem_append_left _ hl)
    have hother : ∀ i, i ≠ l.1 → w.loc i = v.loc i := fun i hi => hstep.loc_of_ne hi
    obtain ⟨g, s, hl, hw⟩ := hstep
    have hbefore : M.phase (v.loc l.1) = .before := by
      have hinside := hv l.1
      have hafter := M.after_step hl
      cases hphase : M.phase (v.loc l.1) <;> simp_all
    obtain ⟨rfl, hnot, -⟩ := M.before_step hl hbefore (hls l (by simp))
    refine ⟨by rw [hw, hshared], fun i => ?_⟩
    rcases eq_or_ne i l.1 with rfl | hi
    · rw [hw]
      simpa using hnot
    · rw [hother i hi]
      exact hv i

/-- **The serial run.** A run from threads outside their critical sections ends where the run does
that first has the steps before the critical sections and then the critical sections one after the
other.

**Proof sketch.** Induction on the run. A step before a critical section moves in front of all
critical sections, which are those of other threads. A step that takes the mutex starts a new one
at the end; a step inside is one of the thread that holds the mutex, whose critical section is the
last. -/
theorem serialize (ht : ∀ i, M.phase (t.loc i) ≠ .inside) (h : Run M.Step t ls u) :
    ∃ v, Run M.Step t (preparation M.isLock [] ls) v ∧ Run M.Step v (sections M.isLock ls) u := by
  refine h.invariant_labels (I := fun ls u =>
    ∃ v, Run M.Step t (preparation M.isLock [] ls) v ∧ Run M.Step v (sections M.isLock ls) u)
    ⟨t, .nil, .nil⟩ ?_
  rintro ls u l w hrun ⟨v, hprep, hsections⟩ hstep
  have hex := exclusive_of_run ht hrun
  rw [preparation_append, sections, order_append]
  obtain ⟨g, s, hl, -⟩ := id hstep
  cases hlock : M.isLock l.2 with
  | true =>
    have hnew : l.1 ∉ order M.isLock ls := fun hmem => hex.entered _ hmem (M.lock_step hl hlock).1
    refine ⟨v, by simpa [hlock] using hprep, ?_⟩
    rw [order_lock hlock, List.flatMap_append, flatMap_sectionOf_append hnew, List.flatMap_cons,
      List.flatMap_nil, List.append_nil, sectionOf_append_lock hnew hlock]
    exact hsections.snoc hstep
  | false =>
    rw [order_of_not_lock hlock, List.append_nil]
    cases hphase : M.phase (u.loc l.1) with
    | before =>
      have hnew : l.1 ∉ order M.isLock ls := fun hmem => hex.entered _ hmem hphase
      have hother : ∀ k ∈ sections M.isLock ls, k.1 ≠ l.1 := by
        intro k hk heq
        obtain ⟨i, hi, hk⟩ := List.mem_flatMap.mp hk
        rw [fst_of_mem_sectionOf hk] at heq
        exact hnew (heq ▸ hi)
      have hloc := loc_of_run hsections hother
      obtain ⟨w', hw', hrun'⟩ := swap_run hsections hother (by rw [← hloc, hphase]) hlock hstep
      refine ⟨w', ?_, ?_⟩
      · simpa [hlock, hnew] using hprep.snoc hw'
      · rw [flatMap_sectionOf_append hnew]
        exact hrun'
    | inside =>
      obtain ⟨pre, hlast⟩ := hex.last _ hphase
      have hmem : l.1 ∈ order M.isLock ls := by
        rw [hlast]
        simp
      have hpre : l.1 ∉ pre := by
        have hnodup := hex.nodup
        rw [hlast, ← List.concat_eq_append, List.nodup_concat] at hnodup
        exact hnodup.1
      refine ⟨v, by simpa [hmem] using hprep, ?_⟩
      rw [sections, hlast, List.flatMap_append] at hsections
      rw [hlast, List.flatMap_append, flatMap_sectionOf_append hpre, List.flatMap_cons,
        List.flatMap_nil, List.append_nil, sectionOf_append_self hmem, ← List.append_assoc]
      refine Run.snoc ?_ hstep
      simpa using hsections
    | after => exact absurd hphase (M.after_step hl)

/-- **A critical section of the serial run**: from some state in which the mutex is free, the steps
of the thread are taken without any other step in between, and the later ones leave the thread
where it is. -/
theorem exists_section (ht : ∀ i, M.phase (t.loc i) ≠ .inside) (h : Run M.Step t ls u)
    {pre post : List ι} (horder : order M.isLock ls = pre ++ i :: post) :
    ∃ v w, Run M.Step t (preparation M.isLock [] ls ++ pre.flatMap (sectionOf M.isLock ls)) v ∧
      M.holder v.shared = none ∧ Run M.Step v (sectionOf M.isLock ls i) w ∧
      Run M.Step w (post.flatMap (sectionOf M.isLock ls)) u ∧ u.loc i = w.loc i := by
  obtain ⟨v₀, hprep, hsections⟩ := serialize ht h
  have hnodup := (exclusive_of_run ht h).nodup
  rw [horder] at hnodup
  have hpost : i ∉ post := (List.nodup_cons.mp (List.nodup_append.mp hnodup).2.1).1
  rw [sections, horder, List.flatMap_append, List.flatMap_cons] at hsections
  obtain ⟨v, hpre, hrest⟩ := hsections.split
  obtain ⟨w, hself, hrest⟩ := hrest.split
  have hfree : M.holder v.shared = none := by
    have hi : i ∈ order M.isLock ls := by simp [horder]
    obtain ⟨k, ks, hcons, hlock⟩ := exists_sectionOf_cons hi
    rw [hcons] at hself
    obtain ⟨x, ⟨g, s, hstep, -⟩, -⟩ := hself.uncons
    exact (M.lock_step hstep hlock).2.2.1
  refine ⟨v, w, hprep.append hpre, hfree, hself, hrest, loc_of_run hrest ?_⟩
  intro l hl heq
  obtain ⟨j, hj, hl⟩ := List.mem_flatMap.mp hl
  rw [fst_of_mem_sectionOf hl] at heq
  exact hpost (heq ▸ hj)

/-- **The serial run has the steps of the run**, and the steps of each thread in the same order. -/
theorem serial_perm (ht : ∀ i, M.phase (t.loc i) ≠ .inside) (h : Run M.Step t ls u) :
    (∀ i, (preparation M.isLock [] ls ++ sections M.isLock ls).filter (fun l => l.1 = i) =
      ls.filter fun l => l.1 = i) ∧
      (preparation M.isLock [] ls ++ sections M.isLock ls).Perm ls := by
  have hown : ∀ i, (preparation M.isLock [] ls ++ sections M.isLock ls).filter (fun l => l.1 = i) =
      ls.filter fun l => l.1 = i := by
    intro i
    rw [List.filter_append, filter_preparation, if_neg List.not_mem_nil, sections,
      filter_flatMap_sectionOf (exclusive_of_run ht h).nodup]
    have hsection : (if i ∈ order M.isLock ls then sectionOf M.isLock ls i else []) =
        sectionOf M.isLock ls i := by
      split_ifs with hi
      · rfl
      · exact (sectionOf_eq_nil hi).symm
    rw [hsection, sectionOf, List.takeWhile_append_dropWhile]
  refine ⟨hown, ?_⟩
  classical
  rw [List.perm_iff_count]
  intro l
  have hcount : ∀ ks : List (ι × ℓ), (ks.filter fun k => k.1 = l.1).count l = ks.count l :=
    fun ks => List.count_filter (decide_eq_true rfl)
  rw [← hcount, hown, hcount]

end Protocol

end CriticalSections
