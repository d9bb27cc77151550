import Aesd.Lib.LocalArray
import Mathlib.Data.List.DropRight
import Mathlib.Data.Nat.Notation
import Mathlib.Tactic.Lemma

set_option relaxedAutoImplicit false
set_option autoImplicit false

/-!
# The command runners

`systemcalls.c` runs a command in three ways: `do_system` hands it to the shell, `do_exec` and
`do_exec_redirect` fork and call `execv`, the second with its output sent to a file. The two copy
their arguments to an array `command`, one longer than their number so that the final NULL fits, and
from there to an array `cmd`, which is as long as their number although the final NULL is copied too.

The three decode the wait status of the command in different ways: `do_system` asks whether the
command exited, the others for its exit code, whether it exited or not.

## Main definitions

* `Aesd.waitStatus`, `Aesd.wifexited`, `Aesd.wexitstatus` — wait statuses.
* `Aesd.execArrays` — the arrays of `do_exec` and `do_exec_redirect`.
* `Aesd.doSystem`, `Aesd.doExec`, `Aesd.doExecRedirect` — the runners.

## Main results

* `Aesd.execArrays_vector`, `Aesd.execArrays_outside` — the arguments of `execv`, and the store
  outside `cmd`.
* `Aesd.command_runners` — which parts of the contract the runners meet, and when.
-/

namespace Aesd

/-! ## Wait statuses -/

/-- The number of a signal that ends a process. -/
def Signal := { n : ℕ // 0 < n ∧ n < 127 }
deriving DecidableEq

/-- The ways a process ends. -/
inductive ProcessEnd where
  | exited (code : UInt8)
  | signaled (sig : Signal) (core : Bool)
deriving DecidableEq

/-- The wait status of a process that has ended: the exit code in the second byte, or the signal in
the first, with a bit for a core dump. -/
def waitStatus : ProcessEnd → ℤ
  | .exited code => code.toNat * 256
  | .signaled sig core => sig.1 + if core then 128 else 0

/-- `WIFEXITED(status)`. -/
def wifexited (status : ℤ) : Prop := status % 128 = 0

instance (status : ℤ) : Decidable (wifexited status) := inferInstanceAs (Decidable (_ = _))

/-- `WEXITSTATUS(status)`. -/
def wexitstatus (status : ℤ) : ℤ := status / 256 % 256

lemma wifexited_waitStatus (e : ProcessEnd) :
    wifexited (waitStatus e) ↔ ∃ code, e = .exited code := by
  cases e with
  | exited code =>
    refine iff_of_true ?_ ⟨code, rfl⟩
    simp only [wifexited, waitStatus]
    omega
  | signaled sig core =>
    refine iff_of_false ?_ (by simp)
    obtain ⟨h0, hlt⟩ := sig.2
    simp only [wifexited, waitStatus]
    split_ifs <;> omega

/-- The status of a process killed by a signal has no exit code: `WEXITSTATUS` gives `0`. -/
lemma wexitstatus_waitStatus (e : ProcessEnd) :
    wexitstatus (waitStatus e) = 0 ↔ ∀ code, e = .exited code → code = 0 := by
  cases e with
  | exited code =>
    have hlt := code.toNat_lt
    have hzero : code = 0 ↔ code.toNat = 0 := UInt8.toNat_inj.symm
    simp only [wexitstatus, waitStatus, ProcessEnd.exited.injEq, forall_eq', hzero]
    omega
  | signaled sig core =>
    obtain ⟨h0, hlt⟩ := sig.2
    refine iff_of_true ?_ (by simp)
    simp only [wexitstatus, waitStatus]
    split_ifs <;> omega

/-! ## The arguments of `execv` -/

/-- A string, without its NUL. -/
abbrev CString := List UInt8

/-- The character `/`. -/
def slash : UInt8 := 47

/-- `basename` of `libgen.h`: the last component of a path, and the path afterwards. Trailing slashes
are no part of a component; they are cut off in place, unless there is nothing else. -/
def basename : Option CString → CString × Option CString
  | none => ([46], none)
  | some path =>
    if path = [] then ([46], some path)
    else if path.rdropWhile (· = slash) = [] then ([slash], some path)
    else ((path.rdropWhile (· = slash)).rtakeWhile (· ≠ slash), some (path.rdropWhile (· = slash)))

/-- The loop `command[i] = va_arg(args, char *)`, from index `i` on. -/
def readArgs : List CString → ℕ → LocalArray (Option CString) → LocalArray (Option CString)
  | [], _, command => command
  | arg :: args, i, command => readArgs args (i + 1) (command.store i (some arg))

/-- The loop `cmd[i] = command[i]`, from index `i` on, with the iterations left. -/
def copyArgs (command : LocalArray (Option CString)) :
    ℕ → ℕ → LocalArray (Option CString) → LocalArray (Option CString)
  | 0, _, cmd => cmd
  | n + 1, i, cmd => copyArgs command n (i + 1) (cmd.store i (command.cell i))

/-- The local variables of `do_exec` and `do_exec_redirect` before the fork: the two arrays, and the
string `cpath` points to. -/
structure ExecArrays where
  command : LocalArray (Option CString)
  cmd : LocalArray (Option CString)
  cpath : Option CString

/-- `do_exec` and `do_exec_redirect` up to `va_end`, for `count` arguments in separate strings. The
loop for `cmd` runs from `1` to `count`, both included. -/
def execArrays (args : List CString) (stack : ℕ → Option CString) : ExecArrays :=
  let count := args.length
  let command := (readArgs args 0 (.declare (count + 1) stack)).store count none
  let name := basename (command.cell 0)
  let cmd := (LocalArray.declare count stack).store 0 (some name.1)
  { command, cmd := copyArgs command count 1 cmd, cpath := name.2 }

/-- The arguments of `execv`: the path, and the vector from `cmd[0]` to `cmd[count]`. -/
def ExecArrays.execvArgs (arrays : ExecArrays) (count : ℕ) : Option CString × List (Option CString) :=
  (arrays.cpath, (List.range (count + 1)).map arrays.cmd.cell)

/-- The vector for a command and its arguments: the name of the command, the arguments in order and
a final NULL. -/
def argVector (first : CString) (rest : List CString) : List (Option CString) :=
  some (basename (some first)).1 :: rest.map some ++ [none]

/-- The path ends in slashes that `basename` cuts off. -/
def CutsSlashes (path : CString) : Prop := path.getLast? = some slash ∧ ∃ b ∈ path, b ≠ slash

variable {first : CString} {rest : List CString} {stack : ℕ → Option CString}

/-- Reading the arguments stores them one after the other. -/
lemma readArgs_eq (args : List CString) (i : ℕ) (command : LocalArray (Option CString)) :
    readArgs args i command = command.storeFrom i (args.map some) := by
  induction args generalizing i command with
  | nil => rfl
  | cons arg args ih => exact ih (i + 1) (command.store i (some arg))

/-- Copying the arguments stores cells of the other array one after the other. -/
lemma copyArgs_eq (command : LocalArray (Option CString)) (n i : ℕ)
    (cmd : LocalArray (Option CString)) :
    copyArgs command n i cmd = cmd.storeFrom i ((List.range' i n).map command.cell) := by
  induction n generalizing i cmd with
  | zero => rfl
  | succ n ih =>
    rw [copyArgs, ih, List.range'_succ, List.map_cons]
    rfl

/-- The path is left as it is exactly if it does not end in slashes after something else. -/
lemma basename_path_eq_iff (path : CString) :
    (basename (some path)).2 = some path ↔ ¬CutsSlashes path := by
  rw [basename, CutsSlashes]
  split_ifs with hempty hslashes
  · simp [hempty]
  · rw [List.rdropWhile_eq_nil_iff] at hslashes
    refine iff_of_true rfl ?_
    rintro ⟨-, b, hb, hne⟩
    exact hne (of_decide_eq_true (hslashes b hb))
  · obtain ⟨b, hb, hne⟩ : ∃ b ∈ path, b ≠ slash := by
      rw [List.rdropWhile_eq_nil_iff] at hslashes
      simpa using hslashes
    rw [Option.some_inj, List.rdropWhile_eq_self_iff, List.getLast?_eq_some_getLast hempty]
    simp only [decide_eq_true_eq, Option.some_inj]
    constructor
    · rintro hlast ⟨hslash, -⟩
      exact hlast hempty hslash
    · intro hcuts hl hslash
      exact hcuts ⟨hslash, b, hb, hne⟩

/-- The array `command` is filled by a loop over the arguments and the final NULL. -/
lemma execArrays_command (args : List CString) :
    (execArrays args stack).command =
      (LocalArray.declare (args.length + 1) stack).storeFrom 0 (args.map some ++ [none]) := by
  rw [LocalArray.storeFrom_concat, List.length_map, Nat.zero_add, ← readArgs_eq]
  rfl

/-- The array `command` holds the arguments and the final NULL. -/
lemma execArrays_command_cell (first : CString) (rest : List CString) (stack : ℕ → Option CString) :
    (execArrays (first :: rest) stack).command.cell 0 = some first ∧
    (List.range' 1 (rest.length + 1)).map (execArrays (first :: rest) stack).command.cell =
      rest.map some ++ [none] := by
  have hcells := LocalArray.map_cell_storeFrom
    (LocalArray.declare ((first :: rest).length + 1) stack) 0 ((first :: rest).map some ++ [none])
  rw [← execArrays_command, List.length_append, List.length_map, List.length_cons,
    List.length_singleton, List.range'_succ, List.map_cons, List.map_cons, List.cons_append] at hcells
  exact List.cons.inj hcells

/-- The array `cmd` is filled by a loop over the vector for the command. -/
lemma execArrays_cmd :
    (execArrays (first :: rest) stack).cmd =
      (LocalArray.declare (rest.length + 1) stack).storeFrom 0 (argVector first rest) := by
  obtain ⟨hfirst, hrest⟩ := execArrays_command_cell first rest stack
  have hcopy : (execArrays (first :: rest) stack).cmd =
      copyArgs (execArrays (first :: rest) stack).command (rest.length + 1) 1
        ((LocalArray.declare (rest.length + 1) stack).store 0
          (some (basename ((execArrays (first :: rest) stack).command.cell 0)).1)) := rfl
  rw [hcopy, copyArgs_eq, hrest, hfirst]
  rfl

/-- **The arguments of `execv`**: the vector is the one for the command, and the path is the first
argument as `basename` leaves it. -/
lemma execArrays_vector :
    (execArrays (first :: rest) stack).execvArgs (rest.length + 1) =
      ((basename (some first)).2, argVector first rest) := by
  obtain ⟨hfirst, -⟩ := execArrays_command_cell first rest stack
  have hpath : (execArrays (first :: rest) stack).cpath =
      (basename ((execArrays (first :: rest) stack).command.cell 0)).2 := rfl
  have hcells := LocalArray.map_cell_storeFrom
    (LocalArray.declare (rest.length + 1) stack) 0 (argVector first rest)
  rw [ExecArrays.execvArgs, hpath, hfirst, execArrays_cmd, List.range_eq_range']
  rw [show (argVector first rest).length = rest.length + 1 + 1 by simp [argVector]] at hcells
  rw [hcells]

/-- **The stores outside the arrays**: none outside `command`, and the one of the final NULL outside
`cmd`. -/
lemma execArrays_outside :
    (execArrays (first :: rest) stack).command.outside = [] ∧
      (execArrays (first :: rest) stack).cmd.outside = [rest.length + 1] := by
  rw [execArrays_command, execArrays_cmd, LocalArray.outside_storeFrom_declare,
    LocalArray.outside_storeFrom_declare]
  simp [argVector]

/-! ## The runners -/

/-- `EXIT_FAILURE`. -/
def exitFailure : UInt8 := 1

/-- What becomes of a child that is to run a command: it cannot be executed, or the child ends by
itself or by a signal. -/
inductive ChildEnd where
  | execFailed
  | ended (e : ProcessEnd)
deriving DecidableEq

/-- The wait status of the child, which exits with the given code if it cannot execute the
command. -/
def ChildEnd.status (notExecuted : UInt8) : ChildEnd → ℤ
  | .execFailed => waitStatus (.exited notExecuted)
  | .ended e => waitStatus e

/-- The outcomes of a run of a command: whether the fork and the wait succeed, and what becomes of
the child. -/
structure RunEnv where
  fork : Bool
  child : ChildEnd
  wait : Bool

/-- `system`: the wait status of the shell, as if it had exited with `127` if it could not be
executed; `-1` if there is no child or no status. -/
def system (env : RunEnv) : ℤ := if env.fork ∧ env.wait then env.child.status 127 else -1

/-- `do_system`, with the outcomes of running its command. -/
def doSystem (env : RunEnv) : Bool := if wifexited (system env) then true else false

/-- What a call of `do_exec` or `do_exec_redirect` does: the arrays, the arguments of `execv` if the
child comes to it, and the result. -/
structure ExecReport where
  arrays : ExecArrays
  execv : Option (Option CString × List (Option CString))
  result : Bool

/-- `do_exec` and `do_exec_redirect` for the memory in which the arrays are declared. The child comes
to `execv` or exits before with `EXIT_FAILURE`. -/
def forkExec (args : List CString) (stack : ℕ → Option CString) (env : RunEnv)
    (comesToExecv : Bool) : ExecReport :=
  let arrays := execArrays args stack
  if env.fork = false then { arrays, execv := none, result := false }
  else
    let execv := if comesToExecv then some (arrays.execvArgs args.length) else none
    let status := if comesToExecv then env.child.status exitFailure
      else waitStatus (.exited exitFailure)
    if env.wait = false then { arrays, execv, result := false }
    else if wexitstatus status ≠ 0 then { arrays, execv, result := false }
    else { arrays, execv, result := true }

/-- `do_exec`. -/
def doExec (args : List CString) (stack : ℕ → Option CString) (env : RunEnv) : ExecReport :=
  forkExec args stack env true

/-- The outcomes of a redirected run: also the descriptor of the output file, `none` if it cannot be
opened, and whether `dup2` of a valid descriptor succeeds. -/
structure RedirectEnv extends RunEnv where
  fd : Option ℕ
  dup2 : Bool

/-- The child comes past `dup2`, which fails for the result `-1` of a failed `open`. -/
def RedirectEnv.redirected (env : RedirectEnv) : Bool := env.fd.isSome && env.dup2

/-- `do_exec_redirect`. -/
def doExecRedirect (args : List CString) (stack : ℕ → Option CString) (env : RedirectEnv) :
    ExecReport :=
  forkExec args stack env.toRunEnv env.redirected

/-! ## What the results say -/

namespace RunEnv

/-- The command was run and exited normally with status `0`. -/
def Succeeds (env : RunEnv) : Prop := env.fork ∧ env.wait ∧ env.child = .ended (.exited 0)

/-- The child was killed by a signal. -/
def Killed (env : RunEnv) : Prop :=
  env.fork ∧ env.wait ∧ ∃ sig core, env.child = .ended (.signaled sig core)

/-- The child exited with another status than `0`, or could not execute the command. -/
def Fails (env : RunEnv) : Prop :=
  env.fork ∧ env.wait ∧
    (env.child = .execFailed ∨ ∃ code, env.child = .ended (.exited code) ∧ code ≠ 0)

end RunEnv

variable {env : RunEnv}

/-- The status of the child says that it exited, for a child that exited or could not execute. -/
lemma wifexited_status (notExecuted : UInt8) (child : ChildEnd) :
    wifexited (child.status notExecuted) ↔
      child = .execFailed ∨ ∃ code, child = .ended (.exited code) := by
  cases child with
  | execFailed => exact iff_of_true ((wifexited_waitStatus _).mpr ⟨notExecuted, rfl⟩) (.inl rfl)
  | ended e =>
    rw [ChildEnd.status, wifexited_waitStatus]
    simp

/-- The exit code in the status of the child is `0`, for a child that exited with it or was
killed. -/
lemma wexitstatus_status {notExecuted : UInt8} (hne : notExecuted ≠ 0) (child : ChildEnd) :
    wexitstatus (child.status notExecuted) = 0 ↔
      child = .ended (.exited 0) ∨ ∃ sig core, child = .ended (.signaled sig core) := by
  cases child with
  | execFailed =>
    refine iff_of_false ?_ (by simp)
    rw [ChildEnd.status, wexitstatus_waitStatus]
    exact fun h => hne (h _ rfl)
  | ended e =>
    rw [ChildEnd.status, wexitstatus_waitStatus]
    cases e with
    | exited code => simp
    | signaled sig core => simp

/-- **The result of `do_system`**: the shell exited, whatever its exit code. -/
lemma doSystem_eq_true_iff : doSystem env = true ↔ env.Succeeds ∨ env.Fails := by
  have hresult : doSystem env = true ↔ wifexited (system env) := by
    rw [doSystem]
    split_ifs <;> simp_all
  rw [hresult, system, RunEnv.Succeeds, RunEnv.Fails]
  by_cases hrun : env.fork ∧ env.wait
  · rw [if_pos hrun, wifexited_status]
    obtain ⟨hfork, hwait⟩ := hrun
    simp only [hfork, hwait, true_and]
    constructor
    · rintro (hexec | ⟨code, hcode⟩)
      · exact .inr (.inl hexec)
      · by_cases hzero : code = 0
        · exact .inl (hzero ▸ hcode)
        · exact .inr (.inr ⟨code, hcode, hzero⟩)
    · rintro (hzero | hexec | ⟨code, hcode, -⟩)
      · exact .inr ⟨0, hzero⟩
      · exact .inl hexec
      · exact .inr ⟨code, hcode⟩
  · rw [if_neg hrun]
    refine iff_of_false (by decide) ?_
    rintro (⟨hfork, hwait, -⟩ | ⟨hfork, hwait, -⟩) <;> exact hrun ⟨hfork, hwait⟩

/-- **The result of `do_exec` and `do_exec_redirect`**: the exit code is not another one than `0`,
whether there is one or not. -/
lemma forkExec_result_iff {args : List CString} {comesToExecv : Bool} :
    (forkExec args stack env comesToExecv).result = true ↔
      (env.Succeeds ∨ env.Killed) ∧ comesToExecv = true := by
  have hstatus := wexitstatus_status (show exitFailure ≠ 0 by decide) env.child
  rw [RunEnv.Succeeds, RunEnv.Killed, ← and_or_left, ← and_or_left, ← hstatus]
  simp only [forkExec]
  cases env.fork with
  | false => simp
  | true =>
    cases env.wait with
    | false => simp
    | true =>
      cases comesToExecv with
      | false =>
        have hfailure : wexitstatus (waitStatus (.exited exitFailure)) ≠ 0 := by decide
        simp [hfailure]
      | true => by_cases hzero : wexitstatus (env.child.status exitFailure) = 0 <;> simp [hzero]

/-- The arguments of `execv` in a call of `do_exec` or `do_exec_redirect`. -/
lemma forkExec_execv {comesToExecv : Bool} {path : Option CString} {vector : List (Option CString)}
    (h : (forkExec (first :: rest) stack env comesToExecv).execv = some (path, vector)) :
    path = (basename (some first)).2 ∧ vector = argVector first rest := by
  have hargs : some ((execArrays (first :: rest) stack).execvArgs (rest.length + 1)) =
      some (path, vector) := by
    simp only [forkExec] at h
    split_ifs at h <;> exact h
  rw [execArrays_vector] at hargs
  obtain ⟨hpath, hvector⟩ := Prod.mk.inj (Option.some.inj hargs)
  exact ⟨hpath.symm, hvector.symm⟩

/-- The child comes to `execv` if there is one and nothing ends it before. -/
lemma forkExec_isSome_execv {args : List CString} {comesToExecv : Bool} :
    (forkExec args stack env comesToExecv).execv.isSome = true ↔
      env.fork = true ∧ comesToExecv = true := by
  simp only [forkExec]
  cases env.fork with
  | false => simp
  | true =>
    cases env.wait with
    | false => cases comesToExecv <;> simp
    | true =>
      -- the status does not matter any more
      simp only [Bool.true_eq_false, if_false]
      cases comesToExecv <;> split_ifs <;> simp_all

/-- The arrays of a call of `do_exec` or `do_exec_redirect`. -/
lemma forkExec_arrays {args : List CString} {comesToExecv : Bool} :
    (forkExec args stack env comesToExecv).arrays = execArrays args stack := by
  simp only [forkExec]
  split_ifs <;> rfl

/-! ## The contract -/

/-- A redirected command was run and exited normally with status `0`. -/
def RedirectEnv.Succeeds (env : RedirectEnv) : Prop :=
  env.toRunEnv.Succeeds ∧ env.redirected = true

/-- The child of a redirected command was killed by a signal after the redirection. -/
def RedirectEnv.Killed (env : RedirectEnv) : Prop := env.toRunEnv.Killed ∧ env.redirected = true

/-- What `do_exec` and `do_exec_redirect` promise for the command `first` with the arguments `rest`:
the child calls `execv`, if it comes to it, with the path and the vector for the command, every store
is inside the arrays, and the result says whether the command succeeded. -/
structure ExecContract (first : CString) (rest : List CString) (report : ExecReport)
    (comes succeeds : Prop) : Prop where
  execv_iff : report.execv.isSome = true ↔ comes
  execv_eq : ∀ path vector, report.execv = some (path, vector) →
    path = some first ∧ vector = argVector first rest
  command_inBounds : report.arrays.command.InBounds
  cmd_inBounds : report.arrays.cmd.InBounds
  result_iff : report.result = true ↔ succeeds

/-- What they do of it: the child calls `execv` if it comes to it; the vector is right; the path is
right unless `basename` cuts slashes off; the final NULL is stored outside `cmd`; and the result is
right unless the child was killed. -/
structure ExecParts (first : CString) (rest : List CString) (report : ExecReport)
    (comes succeeds killed : Prop) : Prop where
  execv_iff : report.execv.isSome = true ↔ comes
  vector_eq : ∀ path vector, report.execv = some (path, vector) → vector = argVector first rest
  path_eq_iff : ∀ path vector, report.execv = some (path, vector) →
    (path = some first ↔ ¬CutsSlashes first)
  outside : report.arrays.command.outside = [] ∧ report.arrays.cmd.outside = [rest.length + 1]
  result_iff : (report.result = true ↔ succeeds) ↔ ¬killed

/-- The store outside breaks the contract. -/
lemma ExecParts.not_contract {report : ExecReport} {comes succeeds killed : Prop}
    (h : ExecParts first rest report comes succeeds killed) :
    ¬ExecContract first rest report comes succeeds := by
  intro hcontract
  have hnone := (LocalArray.outside_eq_nil _).mpr hcontract.cmd_inBounds
  rw [h.outside.2] at hnone
  exact absurd hnone (by simp)

/-- A command that was killed has not succeeded. -/
lemma RunEnv.Succeeds.not_killed (h : env.Succeeds) : ¬env.Killed := by
  rintro ⟨-, -, sig, core, hkilled⟩
  exact absurd (h.2.2.symm.trans hkilled) (by simp)

/-- A command that failed has not succeeded. -/
lemma RunEnv.Succeeds.not_fails (h : env.Succeeds) : ¬env.Fails := by
  rintro ⟨-, -, hexec | ⟨code, hcode, hne⟩⟩
  · exact absurd (h.2.2.symm.trans hexec) (by simp)
  · exact hne (by simpa using hcode.symm.trans h.2.2)

/-- **What `do_exec` and `do_exec_redirect` do of their contract.** -/
lemma execParts_forkExec (first : CString) (rest : List CString) (stack : ℕ → Option CString)
    (env : RunEnv) (comesToExecv : Bool) :
    ExecParts first rest (forkExec (first :: rest) stack env comesToExecv)
      (env.fork = true ∧ comesToExecv = true) (env.Succeeds ∧ comesToExecv = true)
      (env.Killed ∧ comesToExecv = true) where
  execv_iff := forkExec_isSome_execv
  vector_eq path vector h := (forkExec_execv h).2
  path_eq_iff path vector h := by rw [(forkExec_execv h).1, basename_path_eq_iff]
  outside := by
    rw [forkExec_arrays]
    exact execArrays_outside
  result_iff := by
    rw [forkExec_result_iff]
    constructor
    · rintro hiff ⟨hkilled, hcomes⟩
      exact (hiff.mp ⟨.inr hkilled, hcomes⟩).1.not_killed hkilled
    · intro hkilled
      constructor
      · rintro ⟨hsucceeds | h, hcomes⟩
        · exact ⟨hsucceeds, hcomes⟩
        · exact absurd ⟨h, hcomes⟩ hkilled
      · rintro ⟨hsucceeds, hcomes⟩
        exact ⟨.inl hsucceeds, hcomes⟩

/-- **What the runners do of their contract**, for every command with any arguments and for every
way its run can end. The result of `do_system` is right exactly unless the command exits with
another status than `0` or the shell cannot be executed. `do_exec` and `do_exec_redirect` store the
final NULL outside `cmd` in every call. Apart from that the child calls `execv` exactly if the fork
succeeds, and for `do_exec_redirect` also the redirection; the vector is right, the path is right
exactly unless it ends in slashes that `basename` cuts off, and the result is right exactly unless
the child is killed by a signal. -/
theorem command_runners (first : CString) (rest : List CString) (stack : ℕ → Option CString)
    (env : RunEnv) (renv : RedirectEnv) :
    ((doSystem env = true ↔ env.Succeeds) ↔ ¬env.Fails) ∧
    (¬ExecContract first rest (doExec (first :: rest) stack env) (env.fork = true)
        env.Succeeds ∧
      ExecParts first rest (doExec (first :: rest) stack env) (env.fork = true) env.Succeeds
        env.Killed) ∧
    (¬ExecContract first rest (doExecRedirect (first :: rest) stack renv)
        (renv.fork = true ∧ renv.redirected = true) renv.Succeeds ∧
      ExecParts first rest (doExecRedirect (first :: rest) stack renv)
        (renv.fork = true ∧ renv.redirected = true) renv.Succeeds renv.Killed) := by
  have hexec : ExecParts first rest (doExec (first :: rest) stack env) (env.fork = true)
      env.Succeeds env.Killed := by
    have hparts := execParts_forkExec first rest stack env true
    simp only [and_true] at hparts
    exact hparts
  have hredirect : ExecParts first rest (doExecRedirect (first :: rest) stack renv)
      (renv.fork = true ∧ renv.redirected = true) renv.Succeeds renv.Killed :=
    execParts_forkExec first rest stack renv.toRunEnv renv.redirected
  refine ⟨?_, ⟨hexec.not_contract, hexec⟩, hredirect.not_contract, hredirect⟩
  rw [doSystem_eq_true_iff]
  constructor
  · intro hiff hfails
    exact (hiff.mp (.inr hfails)).not_fails hfails
  · intro hfails
    exact ⟨fun h => h.resolve_right hfails, .inl⟩

/-- A command that exits with status `1` satisfies `do_system`, one that is killed satisfies
`do_exec`, and every call of `do_exec` stores outside `cmd`. -/
theorem command_runners_fail :
    (¬∀ env : RunEnv, doSystem env = true ↔ env.Succeeds) ∧
    (¬∀ (first : CString) (rest : List CString) (stack : ℕ → Option CString) (env : RunEnv),
      (doExec (first :: rest) stack env).result = true ↔ env.Succeeds) ∧
    ¬∀ (first : CString) (rest : List CString) (stack : ℕ → Option CString) (env : RunEnv),
      (doExec (first :: rest) stack env).arrays.cmd.InBounds := by
  refine ⟨fun h => ?_, fun h => ?_, fun h => ?_⟩
  · obtain ⟨-, -, hzero⟩ := (h ⟨true, .ended (.exited 1), true⟩).mp (by decide)
    exact absurd hzero (by decide)
  · obtain ⟨-, -, hzero⟩ := (h [47, 98] [] (fun _ => none)
      ⟨true, .ended (.signaled ⟨9, by decide⟩ false), true⟩).mp (by decide)
    exact absurd hzero (by simp)
  · have hbound := h [47, 98] [] (fun _ => none) ⟨true, .ended (.exited 0), true⟩ 1 (by decide)
    exact absurd hbound (by decide)

end Aesd
