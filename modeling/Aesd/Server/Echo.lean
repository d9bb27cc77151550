import Aesd.Lib.Run
import Aesd.Server.SessionSpec
import Mathlib.Algebra.Order.BigOperators.Group.Finset

set_option relaxedAutoImplicit false
set_option autoImplicit false

/-!
# The echo server

Any number of sessions run at once, their steps interleaved in any order, while everything that
may fail succeeds. The mutex makes each session write its line and read the device without another
session in between, so each client receives the lines of the last ten sessions that took the
mutex up to its own.

## Main definitions

* `Aesd.lastLines` — the lines of the last ten sessions in an order.
* `Aesd.SessionOk`, `Aesd.ServerOk` — the invariant, for a given order.

## Main results

* `Aesd.ServerOk.step`, `Aesd.ServerOk.run` — one step, and a whole run.
* `Aesd.ServerOk.progress` — the server does not deadlock.
* `Aesd.echo_contract` — what the clients receive.
-/

namespace Aesd

open Transition

variable {n : ℕ}

/-! ## The order of the sessions -/

@[simp] lemma lockOrder_append (ls ls' : List (Fin n × Event)) :
    lockOrder (ls ++ ls') = lockOrder ls ++ lockOrder ls' := List.filterMap_append

lemma lockOrder_lock (i : Fin n) : lockOrder [(i, .lock true)] = [i] := rfl

/-- A step that does not take the mutex leaves the order alone. -/
lemma lockOrder_of_ne (i : Fin n) {e : Event} (he : e ≠ .lock true) : lockOrder [(i, e)] = [] := by
  cases e with
  | lock taken =>
    cases taken with
    | false => rfl
    | true => exact absurd rfl he
  | _ => rfl

/-- The lines of the last ten sessions in this order. -/
def lastLines (lines : Fin n → List Byte) (order : List (Fin n)) : List (List Byte) :=
  (order.map lines).rtake 10

variable {lines rest : Fin n → List Byte} {order : List (Fin n)}

/-- The lines are lines of sessions. -/
lemma echoLine_of_mem (hlines : ∀ i, EchoLine (lines i)) {c : List Byte}
    (hc : c ∈ lastLines lines order) : EchoLine c := by
  obtain ⟨i, -, rfl⟩ := List.mem_map.mp (List.mem_of_mem_drop hc)
  exact hlines i

/-- The lines are together not longer than the lines of all sessions. -/
lemma length_lastLines_le (hnodup : order.Nodup) :
    (lastLines lines order).flatten.length ≤ ∑ i, (lines i).length := by
  have hsub : ((lastLines lines order).map List.length).Sublist
      ((order.map lines).map List.length) := (List.drop_sublist _ _).map _
  calc (lastLines lines order).flatten.length
      = ((lastLines lines order).map List.length).sum := List.length_flatten
    _ ≤ ((order.map lines).map List.length).sum := hsub.sum_le_sum fun _ _ => Nat.zero_le _
    _ = (order.map fun i => (lines i).length).sum := by rw [List.map_map]; rfl
    _ = ∑ i ∈ order.toFinset, (lines i).length := (List.sum_toFinset _ hnodup).symm
    _ ≤ ∑ i, (lines i).length := Finset.sum_le_univ_sum_of_nonneg fun _ => Nat.zero_le _

/-! ## The invariant -/

/-- Session `i` is in one of its stages: the one that holds the mutex is the last one in the
order, and while it is writing the device has not been given its line. -/
inductive SessionOk (lines rest : Fin n → List Byte) (order : List (Fin n)) (g : Shared (Fin n))
    (i : Fin n) (s : Session) : Prop
  | receiving (hmutex : g.mutex ≠ some i) (horder : i ∉ order)
      (hs : Receiving (lines i) (rest i) s)
  | writing {pre : List (Fin n)} (hmutex : g.mutex = some i) (horder : order = pre ++ [i])
      (hdev : Holds g.dev (pre.map lines)) (hs : Writing (lines i) s)
  | replying {pre : List (Fin n)} (hmutex : g.mutex = some i) (horder : order = pre ++ [i])
      (hdev : Holds g.dev (order.map lines)) (hs : Replying (lastLines lines order) s)
  | finished {pre post : List (Fin n)} (hmutex : g.mutex ≠ some i)
      (horder : order = pre ++ i :: post) (hpc : s.pc = .done)
      (hs : s.sent = (lastLines lines (pre ++ [i])).flatten)

/-- The invariant of the server after the sessions `order` have taken the mutex. While the mutex
is free the device has been given their lines. -/
structure ServerOk (lines rest : Fin n → List Byte) (order : List (Fin n)) (t : Server n) :
    Prop where
  nodup : order.Nodup
  free : t.shared.mutex = none → Holds t.shared.dev (order.map lines)
  sess : ∀ i, SessionOk lines rest order t.shared i (t.sess i)

/-- A bound on the number of steps the server still takes. -/
def Server.work (total : ℕ) (t : Server n) : ℕ := ∑ i, (t.sess i).work total

variable {fsl : FixedSizeLlseek} {g g' : Shared (Fin n)} {i j : Fin n} {s s' : Session} {e : Event}

/-- **Frame rule**: a session that does not hold the mutex is not affected by another one that
takes it, uses the device or releases it. -/
lemma SessionOk.frame (hs : SessionOk lines rest order g j s) (hmutex : g.mutex ≠ some j)
    (hmutex' : g'.mutex ≠ some j) {new : List (Fin n)} (hnew : j ∉ new) :
    SessionOk lines rest (order ++ new) g' j s := by
  cases hs with
  | receiving _ horder hs =>
    refine .receiving hmutex' ?_ hs
    rw [List.mem_append, not_or]
    exact ⟨horder, hnew⟩
  | writing h => exact absurd h hmutex
  | replying h => exact absurd h hmutex
  | @finished pre post _ horder hpc hs =>
    have horder' : order ++ new = pre ++ j :: (post ++ new) := by
      rw [horder, List.append_assoc, List.cons_append]
    exact .finished hmutex' horder' hpc hs

/-- What a step of session `i` does: it keeps the session in one of its stages, and if it changes
the shared state no other session holds the mutex. -/
structure StepOk (lines rest : Fin n → List Byte) (order order' : List (Fin n))
    (g g' : Shared (Fin n)) (i : Fin n) (s' : Session) : Prop where
  nodup : order'.Nodup
  free : g'.mutex = none → Holds g'.dev (order'.map lines)
  sess : SessionOk lines rest order' g' i s'
  others : (g' = g ∧ order' = order) ∨
    ∃ new, order' = order ++ new ∧ ∀ j ≠ i, g.mutex ≠ some j ∧ g'.mutex ≠ some j ∧ j ∉ new

/-- **One step of one session.**

**Proof sketch.** One case for each stage, from what a step does in it. Only the step that takes
the mutex extends the order; the steps that write the line and that release the mutex change the
shared state, and are made by the session that holds it. -/
lemma SessionOk.step (hlines : ∀ i, EchoLine (lines i)) (hnodup : order.Nodup)
    (hfree : g.mutex = none → Holds g.dev (order.map lines))
    (hs : SessionOk lines rest order g i s) (he : e.Succeeds g.dev s.pc)
    (h : sessionStep fsl i g s e = some (g', s')) :
    s'.work (∑ i, (lines i).length) < s.work (∑ i, (lines i).length) ∧
      StepOk lines rest order (order ++ lockOrder [(i, e)]) g g' i s' := by
  cases hs with
  | receiving hmutex horder hs =>
    have hstep := Receiving.step (hlines i) hs he h (∑ i, (lines i).length)
    obtain ⟨hwork, ⟨hne, rfl, hs'⟩ | ⟨rfl, hnone, rfl, hs'⟩⟩ := hstep
    · rw [lockOrder_of_ne i hne, List.append_nil]
      exact ⟨hwork, hnodup, hfree, .receiving hmutex horder hs', .inl ⟨rfl, rfl⟩⟩
    · rw [lockOrder_lock]
      refine ⟨hwork, ?_, fun hmutex' => absurd hmutex' (by simp),
        .writing rfl rfl (hfree hnone) hs', .inr ⟨[i], rfl, fun j hj => ?_⟩⟩
      · rw [← List.concat_eq_append]
        exact hnodup.concat horder
      · refine ⟨by simp [hnone], ?_, by simp [hj]⟩
        exact fun hmutex' => hj (Option.some.inj hmutex').symm
  | @writing pre hmutex horder hdev hs =>
    have hstep := Writing.step (hlines i) hdev hs he h (∑ i, (lines i).length)
    obtain ⟨hwork, hne, ⟨rfl, hs'⟩ | ⟨hmutex', hdev', hs'⟩⟩ := hstep
    · rw [lockOrder_of_ne i hne, List.append_nil]
      exact ⟨hwork, hnodup, hfree, .writing hmutex horder hdev hs', .inl ⟨rfl, rfl⟩⟩
    · rw [lockOrder_of_ne i hne]
      have hmap : pre.map lines ++ [lines i] = order.map lines := by
        rw [horder, List.map_append, List.map_singleton]
      rw [hmap] at hdev' hs'
      refine ⟨hwork, by rwa [List.append_nil], ?_, ?_, .inr ⟨[], rfl, fun j hj => ?_⟩⟩
      · intro hnone
        rw [hmutex', hmutex] at hnone
        exact absurd hnone (by simp)
      · rw [List.append_nil]
        exact .replying (hmutex'.trans hmutex) horder hdev' hs'
      · rw [hmutex', hmutex]
        have hij : some i ≠ some j := fun hij => hj (Option.some.inj hij).symm
        exact ⟨hij, hij, List.not_mem_nil⟩
  | replying hmutex horder hdev hs =>
    have hstep := Replying.step hdev rfl (fun c hc => echoLine_of_mem hlines hc) hs he h
      (length_lastLines_le hnodup)
    obtain ⟨hwork, hne, ⟨rfl, hs'⟩ | ⟨rfl, hpc, hsent⟩⟩ := hstep
    · rw [lockOrder_of_ne i hne, List.append_nil]
      exact ⟨hwork, hnodup, hfree, .replying hmutex horder hdev hs', .inl ⟨rfl, rfl⟩⟩
    · rw [lockOrder_of_ne i hne]
      refine ⟨hwork, by rwa [List.append_nil], fun _ => ?_, ?_, .inr ⟨[], rfl, fun j hj => ?_⟩⟩
      · rw [List.append_nil]
        exact hdev
      · rw [List.append_nil]
        exact .finished (by simp) horder hpc (horder ▸ hsent)
      · rw [hmutex]
        exact ⟨fun hij => hj (Option.some.inj hij).symm, by simp, List.not_mem_nil⟩
  | finished hmutex horder hpc hs =>
    simp [sessionStep, hpc] at h

variable {t u : Server n} {l : Fin n × Event} {ls : List (Fin n × Event)}

/-- **One step of the server** keeps the invariant and makes the remaining work smaller. -/
theorem ServerOk.step (hlines : ∀ i, EchoLine (lines i)) (ht : ServerOk lines rest order t)
    (h : guarded Succeeds (ServerStep fsl) t l u) :
    ServerOk lines rest (order ++ lockOrder [l]) u ∧
      u.work (∑ i, (lines i).length) < t.work (∑ i, (lines i).length) := by
  obtain ⟨i, e⟩ := l
  obtain ⟨he, g, s, hstep, rfl⟩ := h
  obtain ⟨hwork, hok⟩ := (ht.sess i).step hlines ht.nodup ht.free he hstep
  refine ⟨⟨hok.nodup, hok.free, fun j => ?_⟩, ?_⟩
  · rcases eq_or_ne j i with rfl | hj
    · simpa using hok.sess
    · simp only [Function.update_of_ne hj]
      rcases hok.others with ⟨hg, horder⟩ | ⟨new, hnew, hothers⟩
      · rw [hg, horder]
        exact ht.sess j
      · obtain ⟨hmutex, hmutex', hmem⟩ := hothers j hj
        rw [hnew]
        exact (ht.sess j).frame hmutex hmutex' hmem
  · refine Finset.sum_lt_sum (fun j _ => ?_) ⟨i, Finset.mem_univ i, by simpa using hwork⟩
    rcases eq_or_ne j i with rfl | hj
    · simpa using hwork.le
    · simp [Function.update_of_ne hj]

/-- The invariant at the start. -/
lemma serverOk_start {dev : Driver} (hdev : Initialised dev) (lines rest : Fin n → List Byte) :
    ServerOk lines rest [] (Server.start dev fun i => lines i ++ rest i) := by
  refine ⟨List.nodup_nil, fun _ => ?_, fun i => .receiving (by simp [Server.start]) (by simp) ?_⟩
  · obtain ⟨g, rfl⟩ := initialised_iff.mp hdev
    exact ⟨⟨[], inv_initialDriver g⟩, rfl, contents_initialDriver g⟩
  · exact ⟨rfl, rfl⟩

/-- **A run of the server** keeps the invariant, for the order in which its steps take the
mutex, and is not longer than the work at its start. -/
theorem ServerOk.run (hlines : ∀ i, EchoLine (lines i)) (ht : ServerOk lines rest order t)
    (hrun : Run (guarded Succeeds (ServerStep fsl)) t ls u) :
    ServerOk lines rest (order ++ lockOrder ls) u ∧
      ls.length + u.work (∑ i, (lines i).length) ≤ t.work (∑ i, (lines i).length) := by
  constructor
  · refine hrun.invariant_labels
      (I := fun ls v => ServerOk lines rest (order ++ lockOrder ls) v) ?_ ?_
    · simpa [lockOrder] using ht
    · intro ls v l w _ hv hstep
      rw [lockOrder_append, ← List.append_assoc]
      exact (hv.step hlines hstep).1
  · refine hrun.length_le (I := fun v => ∃ order, ServerOk lines rest order v) ⟨order, ht⟩ ?_
    intro v l w ⟨order, hv⟩ hstep
    obtain ⟨hw, hlt⟩ := hv.step hlines hstep
    exact ⟨⟨_, hw⟩, hlt⟩

/-- **The server does not deadlock**: as long as a session is not done, some session can go on.

**Proof sketch.** The session that holds the mutex can go on. If the mutex is free, a session that
is not done is receiving, and it can go on. -/
theorem ServerOk.progress (hlines : ∀ i, EchoLine (lines i)) (ht : ServerOk lines rest order t)
    (hi : (t.sess i).pc ≠ .done) : ∃ l u, guarded Succeeds (ServerStep fsl) t l u := by
  have hstep : ∀ j, Enabled fsl j t.shared (t.sess j) →
      ∃ l u, guarded Succeeds (ServerStep fsl) t l u := by
    intro j ⟨e, he, hsome⟩
    obtain ⟨⟨g, s⟩, hrun⟩ := Option.isSome_iff_exists.mp hsome
    exact ⟨(j, e), _, he, g, s, hrun, rfl⟩
  cases hmutex : t.shared.mutex with
  | none =>
    apply hstep i
    cases ht.sess i with
    | receiving _ _ hs => exact hs.enabled hmutex
    | writing h => exact absurd (hmutex.symm.trans h) (by simp)
    | replying h => exact absurd (hmutex.symm.trans h) (by simp)
    | finished _ _ hpc => exact absurd hpc hi
  | some j =>
    apply hstep j
    cases ht.sess j with
    | receiving h => exact absurd hmutex h
    | writing _ _ hdev hs => exact hs.enabled (hlines j) hdev
    | replying _ _ hdev hs => exact hs.enabled hdev rfl
    | finished h => exact absurd hmutex h

/-- Every state can be continued to one in which all sessions are done. -/
lemma ServerOk.exists_run_done (hlines : ∀ i, EchoLine (lines i))
    (ht : ServerOk lines rest order t) :
    ∃ ls u, Run (guarded Succeeds (ServerStep fsl)) t ls u ∧ ∀ i, (u.sess i).pc = .done := by
  have hstep : ∀ u, (∃ order, ServerOk lines rest order u) → ¬(∀ i, (u.sess i).pc = .done) →
      ∃ l v, guarded Succeeds (ServerStep fsl) u l v ∧ (∃ order, ServerOk lines rest order v) ∧
        v.work (∑ i, (lines i).length) < u.work (∑ i, (lines i).length) := by
    intro u ⟨order, hu⟩ hnot
    obtain ⟨i, hi⟩ := not_forall.mp hnot
    have hprogress : ∃ l v, guarded Succeeds (ServerStep fsl) u l v := hu.progress hlines hi
    obtain ⟨l, v, hstep⟩ := hprogress
    obtain ⟨hv, hlt⟩ := hu.step hlines hstep
    exact ⟨l, v, hstep, ⟨_, hv⟩, hlt⟩
  obtain ⟨ls, u, hrun, -, hdone⟩ := Run.exists_goal hstep ⟨order, ht⟩
  exact ⟨ls, u, hrun, hdone⟩

/-! ## What the clients receive -/

/-- What a session has sent while it replies is a prefix of its reply. -/
lemma Replying.sent_prefix {cmds : List (List Byte)} (hs : Replying cmds s) :
    s.sent <+: cmds.flatten := by
  have hat : ∀ {part done todo}, AtReply cmds s part done todo → s.sent <+: cmds.flatten := by
    intro part done todo hat
    rw [hat.cmds_eq, hat.sent_eq, List.flatten_append]
    exact List.prefix_append _ _
  unfold Replying at hs
  split at hs
  · rw [hs.1]
    exact List.nil_prefix
  · obtain ⟨done, todo, h⟩ := hs
    exact hat h
  · obtain ⟨-, ⟨h, -⟩ | ⟨done, c, tail, todo, h⟩⟩ := hs
    · exact hat h
    · exact hat h
  · obtain ⟨done, todo, h⟩ := hs
    exact hat h
  · rw [hs]
  · rw [hs]
  · exact hs.elim

/-- A session has one place in the order. -/
lemma pre_unique (hnodup : order.Nodup) {pre post pre' post' : List (Fin n)}
    (h : order = pre ++ i :: post) (h' : order = pre' ++ i :: post') : pre = pre' := by
  rw [h] at hnodup h'
  have hmem := List.nodup_cons.mp (List.nodup_middle.mp hnodup)
  rw [List.mem_append, not_or] at hmem
  exact ((List.append_cons_inj_of_notMem hmem.1.1 hmem.1.2).mp h').1

/-- **What a session has sent** is a prefix of its reply, and the whole reply when it is done.

**Proof sketch.** A session in the order is writing and has sent nothing, or is replying, or is
done. Its place in the order is unique, so the reply is the one of its stage. -/
lemma SessionOk.sent_eq {pre post : List (Fin n)} (hs : SessionOk lines rest order g i s)
    (hnodup : order.Nodup) (horder : order = pre ++ i :: post) :
    s.sent <+: (lastLines lines (pre ++ [i])).flatten ∧
      (s.pc = .done → s.sent = (lastLines lines (pre ++ [i])).flatten) := by
  cases hs with
  | receiving _ hmem => exact absurd (horder ▸ List.mem_append_right _ List.mem_cons_self) hmem
  | writing _ _ _ hs =>
    refine ⟨?_, fun hpc => ?_⟩
    · rw [hs.1]
      exact List.nil_prefix
    · simp [Writing, hpc] at hs
  | @replying pre' _ horder' _ hs =>
    obtain rfl := pre_unique hnodup horder horder'
    refine ⟨horder' ▸ hs.sent_prefix, fun hpc => ?_⟩
    simp [Replying, hpc] at hs
  | @finished pre' post' _ horder' _ hs =>
    obtain rfl := pre_unique hnodup horder horder'
    exact ⟨by rw [hs], fun _ => hs⟩

/-- A session that has not taken the mutex has sent nothing and is not done. -/
lemma SessionOk.sent_of_not_mem (hs : SessionOk lines rest order g i s) (hmem : i ∉ order) :
    s.sent = [] ∧ s.pc ≠ .done := by
  have hnot : ∀ {pre post}, order ≠ pre ++ i :: post := fun horder =>
    hmem (horder ▸ List.mem_append_right _ List.mem_cons_self)
  cases hs with
  | receiving _ _ hs =>
    refine ⟨hs.1, fun hpc => ?_⟩
    simp [Receiving, hpc] at hs
  | writing _ horder => exact absurd horder hnot
  | replying _ horder => exact absurd horder hnot
  | finished _ horder => exact absurd horder hnot

/-- **Echo contract.** In every run of any number of sessions on a fresh device, in which
everything that may fail succeeds: each session takes the mutex at most once; a session that has
taken it has sent its client a prefix of the lines of the last ten sessions up to its own, and all
of them when it is done; a session that has not taken it has sent nothing. The server never
deadlocks, and every run is bounded, so every run can only end with all sessions done. -/
theorem echo_contract (fsl : FixedSizeLlseek) {dev : Driver} (hdev : Initialised dev)
    {lines rest : Fin n → List Byte} (hlines : ∀ i, EchoLine (lines i))
    {ls : List (Fin n × Event)} {t : Server n}
    (hrun : Run (guarded Succeeds (ServerStep fsl))
      (Server.start dev fun i => lines i ++ rest i) ls t) :
    (lockOrder ls).Nodup ∧
      (∀ i pre post, lockOrder ls = pre ++ i :: post →
        (t.sess i).sent <+: (lastLines lines (pre ++ [i])).flatten ∧
          ((t.sess i).pc = .done → (t.sess i).sent = (lastLines lines (pre ++ [i])).flatten)) ∧
      (∀ i, i ∉ lockOrder ls → (t.sess i).sent = [] ∧ (t.sess i).pc ≠ .done) ∧
      ((∃ i, (t.sess i).pc ≠ .done) → ∃ l u, guarded Succeeds (ServerStep fsl) t l u) ∧
      ls.length ≤ ∑ i, ((lines i ++ rest i).length + (3 * ∑ j, (lines j).length + 12)) := by
  have hstart := serverOk_start hdev lines rest
  obtain ⟨ht, hlen⟩ := hstart.run hlines hrun
  rw [List.nil_append] at ht
  refine ⟨ht.nodup, ?_, ?_, ?_, ?_⟩
  · intro i pre post horder
    exact (ht.sess i).sent_eq ht.nodup horder
  · intro i hmem
    exact (ht.sess i).sent_of_not_mem hmem
  · intro ⟨i, hi⟩
    exact ht.progress hlines hi
  · exact (Nat.le_add_right _ _).trans hlen

/-- A session receives a line of two bytes. -/
def receiveLine : List Event := [.malloc (some 0), .recv grown .ok, .recv grown .ok]

/-- It takes the mutex, writes the line to a block at `data`, and replies with so many lines of two
bytes. -/
def echoLines (data lines : ℕ) : List Event :=
  [.lock true, .openDevice true, .lseek, .write ⟨false, some 1, some data, fun _ => 0, 0⟩, .lseek,
      .malloc (some 0)] ++
    (List.replicate lines [.read grown ⟨false, 0⟩, .read grown ⟨false, 0⟩, .send (some 2),
      .malloc (some 0)]).flatten ++
    [.read grown ⟨false, 0⟩, .closeDevice, .unlock true]

/-- Two sessions; the second receives its line first, but the first takes the mutex first. -/
def twoServed {n : ℕ} (i j : Fin n) : List (Fin n × Event) :=
  receiveLine.map (j, ·) ++ receiveLine.map (i, ·) ++ (echoLines 2 1).map (i, ·) ++
    (echoLines 3 2).map (j, ·)

/-- The clients send `"a\n"`, with another byte after it, and `"b\n"`: the first receives its line,
and the second both lines. -/
theorem echo_contract_two_sessions :
    ∃ t, Run (guarded Succeeds (ServerStep fixedSizeLlseek))
        (Server.start (initialDriver 0) fun i : Fin 2 =>
          (if i = 0 then [97, 10] else [98, 10]) ++ if i = 0 then [120] else []) (twoServed 0 1) t ∧
      (t.sess 0).sent = [97, 10] ∧ (t.sess 1).sent = [97, 10, 98, 10] := by
  have hdev : Initialised (initialDriver 0) := initialised_iff.mpr ⟨0, rfl⟩
  have hlines : ∀ i : Fin 2, EchoLine (if i = 0 then [97, 10] else [98, 10]) := by
    intro i
    split_ifs
    · exact ⟨⟨⟨[97], rfl, by decide⟩, by decide⟩, by decide, rfl⟩
    · exact ⟨⟨⟨[98], rfl, by decide⟩, by decide⟩, by decide, rfl⟩
  have hfold : (((twoServed 0 1).foldlM (succeedingStep fixedSizeLlseek)
      (.start (initialDriver 0) fun i : Fin 2 =>
        (if i = 0 then [97, 10] else [98, 10]) ++ if i = 0 then [120] else [])).map fun t =>
          ((t.sess 0).pc.isDone, (t.sess 1).pc.isDone)) = some (true, true) := by
    decide +kernel
  obtain ⟨t, ht, hseen⟩ := Option.map_eq_some_iff.mp hfold
  obtain ⟨hfirst, hsecond⟩ := Prod.mk.inj hseen
  have hrun := run_of_foldlM_succeeding ht
  obtain ⟨-, hsent, -, -, -⟩ := echo_contract fixedSizeLlseek hdev hlines hrun
  exact ⟨t, hrun, (hsent 0 [] [1] rfl).2 (Pc.eq_done_of_isDone hfirst),
    (hsent 1 [0] [] rfl).2 (Pc.eq_done_of_isDone hsecond)⟩

end Aesd
