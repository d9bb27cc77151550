import Aesd.Lib.Overlay
import Aesd.Server.ReadUntilTerm
import Mathlib.Logic.Function.Basic

set_option relaxedAutoImplicit false
set_option autoImplicit false

/-!
# Writing a text to a file

`main` of `finder-app/writer.c` writes its second argument to the file that its first one names, and
`writer_func` of `server/include/utils.c` does the same with its arguments. Both open the file, and
create it if it cannot be opened; `writer_func` opens it with `O_APPEND`, and `main` with neither
this flag nor `O_TRUNC`, so that it writes over the start of a file that exists.

A path stands for the file it names: there are no links between the files, and nothing else writes
to them.

## Main definitions

* `Aesd.Text` — the strings.
* `Aesd.openOrCreat`, `Aesd.writeFile` — what the two functions have in common.
* `Aesd.writerMain`, `Aesd.writerFunc` — the two functions.
* `Aesd.writerRuns`, `Aesd.writerCalls` — any number of them in order.
* `Aesd.LastCreated` — what a file held when it was last created, and the writes since.

## Main results

* `Aesd.writeFiles_history` — what a file holds after any number of writes.
* `Aesd.writer_history` — the file after a successful run of `writer`.
* `Aesd.writer_func_history` — the file, and the descriptors, after calls of `writer_func`.
-/

namespace Aesd

/-! ## The functions -/

/-- A C string, without the NUL, whose length is an `int`. -/
structure Text where
  chars : List Byte
  no_nul : 0 ∉ chars
  length_lt : chars.length < 2 ^ 31
deriving DecidableEq

/-- The contents of the files by their paths; `none` if there is no such file. -/
abbrev Files := Text → Option (List Byte)

/-- The outcomes of the system calls: whether `open` succeeds if the file exists, whether `creat`
succeeds, `errno` after it, and how many bytes `write` can write, `none` if it fails. -/
structure WriterEnv where
  opens : Bool
  creats : Bool
  errno : ℤ
  written : Option ℕ

/-- The file after `open` and `creat`, whether there is a descriptor for it, and whether the
function goes on. -/
structure Opened where
  file : Option (List Byte)
  fd : Bool
  ok : Bool

/-- `fd = open(fpath, …)`, and `creat` with its check if that fails. -/
def openOrCreat (env : WriterEnv) (file : Option (List Byte)) : Opened :=
  match file, env.opens with
  | some contents, true => ⟨some contents, true, true⟩
  | _, _ => if env.creats then ⟨some [], true, env.errno = 0⟩ else ⟨file, false, false⟩

/-- `int buf_bytes = strlen(buf)`. -/
def Text.bufBytes (buf : Text) : ℤ := signed32 buf.chars.length

/-- What `write(fd, buf, buf_bytes)` writes. -/
def Text.piece (buf : Text) (env : WriterEnv) : List Byte :=
  match env.written with
  | none => []
  | some k => (buf.chars.take (toSizeT buf.bufBytes)).take k

/-- What `write(fd, buf, buf_bytes)` returns. -/
def Text.bytesWritten (buf : Text) (env : WriterEnv) : ℤ :=
  match env.written with
  | none => -1
  | some _ => (buf.piece env).length

/-- The contents after a write: with `O_APPEND` at their end, else over their start. After `creat`
there are none, and the two are the same. -/
def putPiece (append : Bool) (contents piece : List Byte) : List Byte :=
  if append then contents ++ piece else Overlay.overwrite contents piece

/-- How far a function comes. -/
inductive WriteStatus where
  | notCreated
  | incomplete
  | complete
deriving DecidableEq

/-- How far the function came, the files, and whether it has left a descriptor open. -/
structure WriteResult where
  status : WriteStatus
  files : Files
  open_ : Bool

/-- From `open` to `close`. -/
def writeFile (append : Bool) (env : WriterEnv) (fpath buf : Text) (files : Files) : WriteResult :=
  let opened := openOrCreat env (files fpath)
  if opened.ok then
    let contents := putPiece append (opened.file.getD []) (buf.piece env)
    let files := Function.update files fpath (some contents)
    if buf.bytesWritten env ≠ buf.bufBytes then ⟨.incomplete, files, true⟩
    else ⟨.complete, files, false⟩
  else ⟨.notCreated, Function.update files fpath opened.file, opened.fd⟩

/-- `main` of `writer.c` with these arguments, the name of the program included: the exit status,
and the files. -/
def writerMain (env : WriterEnv) (argv : List Text) (files : Files) : ℤ × Files :=
  match argv with
  | _ :: fpath :: buf :: _ =>
    let r := writeFile false env fpath buf files
    (match r.status with | .complete => 0 | _ => 1, r.files)
  | _ => (1, files)

/-- `writer_func(fpath, buf)`: the value it returns, the files, and whether it leaves a descriptor
open. -/
def writerFunc (env : WriterEnv) (fpath buf : Text) (files : Files) : ℤ × Files × Bool :=
  let r := writeFile true env fpath buf files
  (match r.status with | .notCreated => 1 | .incomplete => -1 | .complete => 0, r.files, r.open_)

/-- The arguments of one write, and the outcomes of its system calls. -/
structure WriteCall where
  env : WriterEnv
  fpath : Text
  buf : Text

/-- Runs of `writer` in order, with these arguments and outcomes. -/
def writerRuns (runs : List (WriterEnv × List Text)) (files : Files) : Files :=
  runs.foldl (fun files r => (writerMain r.1 r.2 files).2) files

/-- Calls of `writer_func` in order: the files, the values returned, and the number of descriptors
left open. -/
def writerCalls (calls : List WriteCall) (files : Files) : Files × List ℤ × ℕ :=
  calls.foldl (fun t c =>
    let r := writerFunc c.env c.fpath c.buf t.1
    (r.2.1, t.2.1 ++ [r.1], t.2.2 + r.2.2.toNat)) (files, [], 0)

/-! ## One write -/

variable {append : Bool} {env : WriterEnv} {fpath buf p : Text} {files : Files}

/-- The length of the text, as an `int`. -/
lemma Text.bufBytes_eq (buf : Text) : buf.bufBytes = buf.chars.length := by
  have hlt := buf.length_lt
  rw [bufBytes, signed32, Int.bmod_eq_of_le] <;> omega

/-- A write may write the whole text. -/
lemma Text.piece_prefix (buf : Text) (env : WriterEnv) : buf.piece env <+: buf.chars := by
  rw [piece]
  split
  · exact List.nil_prefix
  · exact (List.take_prefix _ _).trans (List.take_prefix _ _)

/-- It has done so if it returns the number of bytes. -/
lemma Text.piece_eq (h : buf.bytesWritten env = buf.bufBytes) : buf.piece env = buf.chars := by
  rw [bufBytes_eq, bytesWritten] at h
  split at h
  · omega
  · exact (buf.piece_prefix env).eq_of_length (by exact_mod_cast h)

/-- The write goes to what the file holds. -/
def WriterEnv.Opens (env : WriterEnv) (file : Option (List Byte)) : Prop :=
  env.opens = true ∧ file.isSome = true

/-- The write goes to what the file holds, or to a new file. -/
def WriterEnv.Writes (env : WriterEnv) (file : Option (List Byte)) : Prop :=
  env.Opens file ∨ env.creats = true ∧ env.errno = 0

instance (env : WriterEnv) (file : Option (List Byte)) : Decidable (env.Writes file) :=
  inferInstanceAs (Decidable (_ ∧ _ ∨ _))

/-- The status of a write to a file with a descriptor. -/
def Text.status (buf : Text) (env : WriterEnv) : WriteStatus :=
  if buf.bytesWritten env = buf.bufBytes then .complete else .incomplete

/-- What a file holds that a write has created. -/
def Text.created (buf : Text) (env : WriterEnv) : List Byte :=
  if env.errno = 0 then buf.piece env else []

/-- Without a file that can be opened, `creat` decides. -/
lemma openOrCreat_of_not_opens {file : Option (List Byte)} (h : ¬env.Opens file) :
    openOrCreat env file =
      if env.creats then ⟨some [], true, env.errno = 0⟩ else ⟨file, false, false⟩ := by
  cases file with
  | none => rfl
  | some contents =>
    have hopens : env.opens = false := by simpa [WriterEnv.Opens] using h
    simp [openOrCreat, hopens]

/-- **A write to a file that can be opened.** -/
lemma writeFile_opens (h : env.opens = true) {contents : List Byte}
    (hfile : files fpath = some contents) :
    writeFile append env fpath buf files =
      ⟨buf.status env,
        Function.update files fpath (some (putPiece append contents (buf.piece env))),
        buf.bytesWritten env ≠ buf.bufBytes⟩ := by
  have hopened : openOrCreat env (some contents) = ⟨some contents, true, true⟩ := by
    simp [openOrCreat, h]
  rw [writeFile, hfile, hopened, Text.status]
  by_cases hall : buf.bytesWritten env = buf.bufBytes <;> simp [hall]

/-- **A write to a file that cannot be opened but created**, which empties it. -/
lemma writeFile_creates (hopen : ¬env.Opens (files fpath)) (h : env.creats = true) :
    writeFile append env fpath buf files =
      ⟨if env.errno = 0 then buf.status env else .notCreated,
        Function.update files fpath (some (buf.created env)),
        env.errno ≠ 0 ∨ buf.bytesWritten env ≠ buf.bufBytes⟩ := by
  have hput : putPiece append [] (buf.piece env) = buf.piece env := by
    cases append <;> simp [putPiece, Overlay.overwrite]
  rw [writeFile, openOrCreat_of_not_opens hopen, if_pos h, Text.status, Text.created]
  by_cases herr : env.errno = 0 <;>
    by_cases hall : buf.bytesWritten env = buf.bufBytes <;> simp [herr, hall, hput]

/-- **A write to a file that can be neither opened nor created.** -/
lemma writeFile_fails (hopen : ¬env.Opens (files fpath)) (h : env.creats = false) :
    writeFile append env fpath buf files = ⟨.notCreated, files, false⟩ := by
  rw [writeFile, openOrCreat_of_not_opens hopen, h]
  simp [Function.update_eq_self]

/-- A write leaves the other files alone. -/
lemma writeFile_of_ne (hne : fpath ≠ p) :
    (writeFile append env fpath buf files).files p = files p := by
  rw [writeFile]
  split_ifs <;> exact Function.update_of_ne hne.symm _ _

/-- The status tells whether there is a descriptor, and whether the whole text is written. -/
lemma status_writeFile :
    (writeFile append env fpath buf files).status =
      if env.Writes (files fpath) then buf.status env else .notCreated := by
  by_cases hopen : env.Opens (files fpath)
  · obtain ⟨contents, hfile⟩ := Option.isSome_iff_exists.mp hopen.2
    rw [writeFile_opens hopen.1 hfile, if_pos (.inl hopen)]
  · cases hc : env.creats with
    | false => rw [writeFile_fails hopen hc, if_neg (by simp [WriterEnv.Writes, hopen, hc])]
    | true =>
      rw [writeFile_creates hopen hc]
      simp only [WriterEnv.Writes, hopen, hc, true_and, false_or]

/-! ## Any number of writes -/

/-- Writes in order. -/
def writeFiles (append : Bool) (calls : List WriteCall) (files : Files) : Files :=
  calls.foldl (fun files c => (writeFile append c.env c.fpath c.buf files).files) files

/-- What the calls write to a file that they open. -/
def piecesOf (p : Text) (calls : List WriteCall) : List (List Byte) :=
  (calls.filter fun c => c.fpath = p ∧ c.env.opens = true).map fun c => c.buf.piece c.env

/-- There is no file at the start, and no call creates it. -/
def NeverCreated (p : Text) (file : Option (List Byte)) (calls : List WriteCall) : Prop :=
  file = none ∧ ∀ c ∈ calls, c.fpath = p → c.env.creats = false

/-- No call creates the file, if there is one. -/
def Keeps (p : Text) (calls : List WriteCall) : Prop :=
  ∀ c ∈ calls, c.fpath = p → c.env.opens = true ∨ c.env.creats = false

/-- `base` is what the file held at the start, and the calls `since` are all of them, or it is what
the file held when a call created it, and the calls `since` came after that one. A call creates a
file that does not exist or cannot be opened. -/
inductive LastCreated (p : Text) (file : Option (List Byte)) (calls : List WriteCall)
    (base : List Byte) (since : List WriteCall) : Prop
  | start (hfile : file = some base) (hcalls : calls = since) (hkeeps : Keeps p since)
  | created (before : List WriteCall) (c : WriteCall) (hcalls : calls = before ++ c :: since)
      (hp : c.fpath = p) (hcreats : c.env.creats = true)
      (hopens : c.env.opens = false ∨ NeverCreated p file before)
      (hbase : base = c.buf.created c.env) (hkeeps : Keeps p since)

variable {file : Option (List Byte)} {calls since : List WriteCall} {base : List Byte}
  {c : WriteCall}

/-- One more write. -/
lemma writeFiles_concat (calls : List WriteCall) (c : WriteCall) (files : Files) :
    writeFiles append (calls ++ [c]) files =
      (writeFile append c.env c.fpath c.buf (writeFiles append calls files)).files := by
  rw [writeFiles, List.foldl_concat]
  rfl

/-- The pieces of one more call. -/
lemma piecesOf_concat (p : Text) (calls : List WriteCall) (c : WriteCall) :
    piecesOf p (calls ++ [c]) = piecesOf p calls ++
      if c.fpath = p ∧ c.env.opens = true then [c.buf.piece c.env] else [] := by
  rw [piecesOf, List.filter_append, List.map_append]
  congr 1
  split_ifs with h <;> simp [h]

/-- One more call that does not create the file. -/
lemma NeverCreated.concat (h : NeverCreated p file calls)
    (hc : c.fpath = p → c.env.creats = false) : NeverCreated p file (calls ++ [c]) :=
  ⟨h.1, List.forall_mem_append.mpr ⟨h.2, List.forall_mem_singleton.mpr hc⟩⟩

/-- One more call that does not create the file, if there is one. -/
lemma LastCreated.concat (h : LastCreated p file calls base since)
    (hc : c.fpath = p → c.env.opens = true ∨ c.env.creats = false) :
    LastCreated p file (calls ++ [c]) base (since ++ [c]) := by
  have hconcat (hkeeps : Keeps p since) : Keeps p (since ++ [c]) :=
    List.forall_mem_append.mpr ⟨hkeeps, List.forall_mem_singleton.mpr hc⟩
  cases h with
  | start hfile hcalls hkeeps => exact .start hfile (by rw [hcalls]) (hconcat hkeeps)
  | created before k hcalls hp hcreats hopens hbase hkeeps =>
    exact .created before k (by rw [hcalls, List.append_assoc, List.cons_append]) hp hcreats hopens
      hbase (hconcat hkeeps)

/-- A file after calls: nothing has ever created it, or it holds what it held when it was last
created, or at the start, with the pieces of the calls since put there one after the other. -/
def FileHistory (append : Bool) (p : Text) (file : Option (List Byte)) (calls : List WriteCall)
    (after : Option (List Byte)) : Prop :=
  (NeverCreated p file calls ∧ after = none) ∨ ∃ base since, LastCreated p file calls base since ∧
    after = some ((piecesOf p since).foldl (putPiece append) base)

namespace FileHistory

variable {after : Option (List Byte)}

/-- One more call, which opens the file. -/
lemma opens (h : FileHistory append p file calls after) (hp : c.fpath = p)
    (hopens : c.env.opens = true) {contents : List Byte} (hafter : after = some contents) :
    FileHistory append p file (calls ++ [c])
      (some (putPiece append contents (c.buf.piece c.env))) := by
  rcases h with ⟨-, hnone⟩ | ⟨base, since, hlast, hsome⟩
  · rw [hnone] at hafter
    cases hafter
  · refine .inr ⟨base, since ++ [c], hlast.concat fun _ => .inl hopens, ?_⟩
    rw [piecesOf_concat, if_pos ⟨hp, hopens⟩, List.foldl_concat,
      Option.some.inj (hafter.symm.trans hsome)]

/-- One more call, which creates the file. -/
lemma creates (h : FileHistory append p file calls after) (hp : c.fpath = p)
    (hopen : ¬c.env.Opens after) (hcreats : c.env.creats = true) :
    FileHistory append p file (calls ++ [c]) (some (c.buf.created c.env)) := by
  refine .inr ⟨_, [], .created calls c rfl hp hcreats ?_ rfl (by simp [Keeps]), rfl⟩
  rcases h with ⟨hnever, -⟩ | ⟨base, since, -, hsome⟩
  · exact .inr hnever
  · exact .inl (by simpa [WriterEnv.Opens, hsome] using hopen)

/-- One more call, which leaves the file alone. -/
lemma rest (h : FileHistory append p file calls after)
    (hc : c.fpath = p → ¬c.env.Opens after ∧ c.env.creats = false) :
    FileHistory append p file (calls ++ [c]) after := by
  refine h.imp (fun ⟨hnever, hnone⟩ => ⟨hnever.concat fun hp => (hc hp).2, hnone⟩) ?_
  rintro ⟨base, since, hlast, hsome⟩
  refine ⟨base, since ++ [c], hlast.concat fun hp => .inr (hc hp).2, ?_⟩
  have hnot : ¬(c.fpath = p ∧ c.env.opens = true) := by
    rintro ⟨hp, hopens⟩
    exact (hc hp).1 ⟨hopens, by rw [hsome, Option.isSome_some]⟩
  rw [hsome, piecesOf_concat, if_neg hnot, List.append_nil]

end FileHistory

/-- **What a file holds after any number of writes.**

**Proof sketch.** By induction on the calls, the last one apart: it opens the file, creates it, does
neither, or is for another file. -/
lemma writeFiles_history (append : Bool) (calls : List WriteCall) (files : Files) (p : Text) :
    FileHistory append p (files p) calls (writeFiles append calls files p) := by
  induction calls using List.reverseRecOn with
  | nil =>
    cases hfile : files p with
    | none => exact .inl ⟨⟨rfl, by simp⟩, hfile⟩
    | some base => exact .inr ⟨base, [], .start rfl rfl (by simp [Keeps]), hfile⟩
  | append_singleton calls c ih =>
    rw [writeFiles_concat]
    by_cases hp : c.fpath = p
    · subst hp
      by_cases hopen : c.env.Opens (writeFiles append calls files c.fpath)
      · obtain ⟨contents, hsome⟩ := Option.isSome_iff_exists.mp hopen.2
        simp only [writeFile_opens hopen.1 hsome, Function.update_self]
        exact ih.opens rfl hopen.1 hsome
      · cases hcreats : c.env.creats with
        | true =>
          simp only [writeFile_creates hopen hcreats, Function.update_self]
          exact ih.creates rfl hopen hcreats
        | false =>
          simp only [writeFile_fails hopen hcreats]
          exact ih.rest fun _ => ⟨hopen, hcreats⟩
    · rw [writeFile_of_ne hp]
      exact ih.rest fun h => absurd h hp

/-! ## `writer` -/

/-- The write that a run of `writer` makes, if it has enough arguments. -/
def runCall (r : WriterEnv × List Text) : Option WriteCall :=
  match r.2 with
  | _ :: fpath :: buf :: _ => some ⟨r.1, fpath, buf⟩
  | _ => none

/-- Runs without enough arguments leave the files alone, and the others are writes. -/
lemma writerRuns_eq (runs : List (WriterEnv × List Text)) (files : Files) :
    writerRuns runs files = writeFiles false (runs.filterMap runCall) files := by
  induction runs generalizing files with
  | nil => rfl
  | cons r runs ih =>
    obtain ⟨env, argv⟩ := r
    change writerRuns runs (writerMain env argv files).2 = _
    rw [ih]
    match argv with
    | [] => rfl
    | [_] => rfl
    | [_, _] => rfl
    | _ :: _ :: _ :: _ => rfl

/-- The run exits with `0` exactly if it has opened or created the file and written the whole
text. -/
lemma writerMain_exit (name : Text) (more : List Text) :
    (writerMain env (name :: fpath :: buf :: more) files).1 = 0 ↔
      env.Writes (files fpath) ∧ buf.bytesWritten env = buf.bufBytes := by
  simp only [writerMain, status_writeFile, Text.status]
  split_ifs with hw hall <;> simp [*]

/-- A file that no call has created is not there. -/
lemma NeverCreated.eq_none (h : NeverCreated p file calls) {after : Option (List Byte)}
    (hafter : FileHistory append p file calls after) : after = none := by
  rcases hafter with ⟨-, hnone⟩ | ⟨base, since, hlast, -⟩
  · exact hnone
  · cases hlast with
    | start hfile => simp [h.1] at hfile
    | created before k hcalls hp hcreats =>
      have hno := h.2 k (by simp [hcalls]) hp
      rw [hcreats] at hno
      cases hno

/-- The last call is the last one since the file was created, or has created it. -/
lemma LastCreated.eq_nil_or_concat (h : LastCreated p file (calls ++ [c]) base since) :
    (since = [] ∧ base = c.buf.created c.env ∧
        (c.env.opens = false ∨ NeverCreated p file calls)) ∨
      ∃ older, since = older ++ [c] ∧
        (c.fpath = p → c.env.opens = true ∨ c.env.creats = false) := by
  have hlast (older : List WriteCall) (k : WriteCall) (hkeeps : Keeps p (older ++ [k]))
      (before : List WriteCall) (hcalls : calls ++ [c] = before ++ (older ++ [k])) :
      k = c ∧ (c.fpath = p → c.env.opens = true ∨ c.env.creats = false) := by
    rw [← List.append_assoc] at hcalls
    obtain ⟨-, hck⟩ := List.append_inj' hcalls rfl
    obtain rfl : c = k := by simpa using hck
    exact ⟨rfl, hkeeps c (by simp)⟩
  rcases List.eq_nil_or_concat' since with rfl | ⟨older, k, rfl⟩
  · cases h with
    | start _ hcalls => simp at hcalls
    | created before k hcalls _ _ hopens hbase =>
      obtain ⟨rfl, hck⟩ := List.append_inj' hcalls rfl
      obtain rfl : c = k := by simpa using hck
      exact .inl ⟨rfl, hbase, hopens⟩
  · cases h with
    | start _ hcalls hkeeps =>
      obtain ⟨rfl, hc⟩ := hlast older k hkeeps [] hcalls
      exact .inr ⟨older, rfl, hc⟩
    | created before l hcalls _ _ _ _ hkeeps =>
      obtain ⟨rfl, hc⟩ := hlast older k hkeeps (before ++ [l]) (by simpa using hcalls)
      exact .inr ⟨older, rfl, hc⟩

/-- After a call that has written its whole text, this is the last text in the file. -/
lemma LastCreated.last_text (h : LastCreated p file (calls ++ [c]) base since) (hp : c.fpath = p)
    {after : Option (List Byte)} (hafter : FileHistory append p file calls after)
    (hwrites : c.env.Writes after) (hall : c.buf.bytesWritten c.env = c.buf.bufBytes) :
    (piecesOf p since = [] ∧ base = c.buf.chars) ∨
      ∃ older, piecesOf p since = older ++ [c.buf.chars] := by
  rcases h.eq_nil_or_concat with ⟨rfl, rfl, hnew⟩ | ⟨older, rfl, hc⟩
  · have hopen : ¬c.env.Opens after := by
      rintro ⟨hopens, hsome⟩
      rcases hnew with hnot | hnever
      · simp [hnot] at hopens
      · simp [hnever.eq_none hafter] at hsome
    have herr : c.env.errno = 0 := (hwrites.resolve_left hopen).2
    exact .inl ⟨rfl, by rw [Text.created, if_pos herr, Text.piece_eq hall]⟩
  · have hopens : c.env.opens = true := by
      rcases hwrites with hopen | ⟨hcreats, -⟩
      · exact hopen.1
      · simpa [hcreats] using hc hp
    exact .inr ⟨_, by rw [piecesOf_concat, if_pos ⟨hp, hopens⟩, Text.piece_eq hall]⟩

/-- **The file after a successful run of `writer`.** After any runs of `writer`, for any files and
whatever fails in them, a run that exits with `0` leaves in its file, at each position, the byte of
the last text that reaches this position, among what the file held when it was last created, or at
the start, and the texts written to it since. The file holds the text of the run, as `writer` is
meant to leave it, if and only if none of these is longer.

**Proof sketch.** `writeFiles_history` for the runs, the last one included, whose text is the last
one; the rest is about texts written over each other. -/
theorem writer_history (runs : List (WriterEnv × List Text)) (files : Files) (name : Text)
    (more : List Text)
    (hexit : (writerMain env (name :: fpath :: buf :: more) (writerRuns runs files)).1 = 0) :
    ∃ base since contents,
      LastCreated fpath (files fpath) (runs.filterMap runCall ++ [⟨env, fpath, buf⟩]) base since ∧
      writerRuns (runs ++ [(env, name :: fpath :: buf :: more)]) files fpath = some contents ∧
      (∀ k : ℕ, contents[k]? = (Overlay.topmost base (piecesOf fpath since) k)[k]?) ∧
      (contents = buf.chars ↔
        ∀ v ∈ base :: piecesOf fpath since, v.length ≤ buf.chars.length) := by
  rw [writerMain_exit, writerRuns_eq] at hexit
  obtain ⟨hwrites, hall⟩ := hexit
  have hbefore := writeFiles_history false (runs.filterMap runCall) files fpath
  rw [writerRuns_eq, List.filterMap_append]
  change ∃ base since contents, _ ∧ writeFiles false (runs.filterMap runCall ++
    [⟨env, fpath, buf⟩]) files fpath = some contents ∧ _
  rcases writeFiles_history false (runs.filterMap runCall ++ [⟨env, fpath, buf⟩]) files fpath with
    ⟨hnever, -⟩ | ⟨base, since, hlast, hsome⟩
  · have hnot : env.creats = false := hnever.2 ⟨env, fpath, buf⟩ (by simp) rfl
    have hnone := NeverCreated.eq_none
      ⟨hnever.1, fun c hc => hnever.2 c (List.mem_append_left _ hc)⟩ hbefore
    simp [WriterEnv.Writes, WriterEnv.Opens, hnone, hnot] at hwrites
  · refine ⟨base, since, _, hlast, hsome, Overlay.getElem?_overlay _ _, ?_⟩
    rcases hlast.last_text rfl hbefore hwrites hall with ⟨hpieces, rfl⟩ | ⟨older, hpieces⟩
    · simp [hpieces]
    · rw [hpieces, ← List.cons_append, List.forall_mem_append, List.forall_mem_singleton,
        and_iff_left le_rfl]
      exact Overlay.overlay_concat_eq_iff

/-- `writer f x` after `writer f abc` leaves `"xbc"` in the file. -/
theorem writer_history_shorter :
    ∃ contents, writerRuns [(⟨true, true, 0, some 9⟩, [⟨[119], by decide, by decide⟩,
        ⟨[102], by decide, by decide⟩, ⟨[97, 98, 99], by decide, by decide⟩]),
        (⟨true, true, 0, some 9⟩, [⟨[119], by decide, by decide⟩, ⟨[102], by decide, by decide⟩,
          ⟨[120], by decide, by decide⟩])] (fun _ => none) ⟨[102], by decide, by decide⟩ =
      some contents ∧ contents[2]? = some 99 := by
  obtain ⟨base, since, contents, -, hcontents, -, -⟩ := @writer_history ⟨true, true, 0, some 9⟩
    ⟨[102], by decide, by decide⟩ ⟨[120], by decide, by decide⟩
    [(⟨true, true, 0, some 9⟩, [⟨[119], by decide, by decide⟩, ⟨[102], by decide, by decide⟩,
      ⟨[97, 98, 99], by decide, by decide⟩])] (fun _ => none)
    ⟨[119], by decide, by decide⟩ [] (by decide)
  refine ⟨contents, hcontents, ?_⟩
  obtain rfl : contents = [120, 98, 99] := Option.some.inj (hcontents.symm.trans (by decide))
  rfl

/-! ## `writer_func` -/

/-- One more call. -/
lemma writerCalls_concat (calls : List WriteCall) (c : WriteCall) (files : Files) :
    writerCalls (calls ++ [c]) files =
      let t := writerCalls calls files
      let r := writerFunc c.env c.fpath c.buf t.1
      (r.2.1, t.2.1 ++ [r.1], t.2.2 + r.2.2.toNat) := by
  rw [writerCalls, List.foldl_concat]
  rfl

/-- Each call returns something. -/
lemma length_writerCalls (calls : List WriteCall) (files : Files) :
    (writerCalls calls files).2.1.length = calls.length := by
  induction calls using List.reverseRecOn with
  | nil => rfl
  | append_singleton calls c ih => simp [writerCalls_concat, ih]

/-- What the later calls return depends on the earlier ones only through the files. -/
lemma writerCalls_append (calls later : List WriteCall) (files : Files) :
    (writerCalls (calls ++ later) files).1 = (writerCalls later (writerCalls calls files).1).1 ∧
      (writerCalls (calls ++ later) files).2.1 =
        (writerCalls calls files).2.1 ++ (writerCalls later (writerCalls calls files).1).2.1 := by
  induction later using List.reverseRecOn with
  | nil => simp [writerCalls]
  | append_singleton later c ih =>
    obtain ⟨hfiles, hreturns⟩ := ih
    rw [← List.append_assoc, writerCalls_concat, writerCalls_concat later]
    simp only [hfiles, hreturns, List.append_assoc, and_self]

/-- The files after the calls are those after their writes. -/
lemma writerCalls_fst (calls : List WriteCall) (files : Files) :
    (writerCalls calls files).1 = writeFiles true calls files := by
  induction calls using List.reverseRecOn with
  | nil => rfl
  | append_singleton calls c ih =>
    rw [writerCalls_concat, writeFiles_concat, ← ih]
    rfl

/-- Pieces appended one after the other. -/
lemma foldl_putPiece_append (contents : List Byte) (ws : List (List Byte)) :
    ws.foldl (putPiece true) contents = contents ++ ws.flatten := by
  induction ws generalizing contents with
  | nil => simp
  | cons w ws ih =>
    rw [List.foldl_cons, ih, List.flatten_cons, ← List.append_assoc]
    rfl

/-- What a call returns if its file is as given. -/
def WriteCall.returns (c : WriteCall) (file : Option (List Byte)) : ℤ :=
  if c.env.Writes file then if c.buf.bytesWritten c.env = c.buf.bufBytes then 0 else -1 else 1

/-- A call that has returned this has left a descriptor open. -/
def WriteCall.leaks (c : WriteCall) (r : ℤ) : Bool := r = -1 || r = 1 && c.env.creats

/-- **One call of `writer_func`**: what it returns, and whether it leaves a descriptor open. -/
lemma writerFunc_returns (c : WriteCall) (files : Files) :
    (writerFunc c.env c.fpath c.buf files).1 = c.returns (files c.fpath) ∧
      (writerFunc c.env c.fpath c.buf files).2.2 = c.leaks (c.returns (files c.fpath)) := by
  have hreturns : (writerFunc c.env c.fpath c.buf files).1 = c.returns (files c.fpath) := by
    simp only [writerFunc, status_writeFile, Text.status, WriteCall.returns]
    split_ifs <;> rfl
  refine ⟨hreturns, ?_⟩
  rw [← hreturns]
  by_cases hopen : c.env.Opens (files c.fpath)
  · obtain ⟨contents, hsome⟩ := Option.isSome_iff_exists.mp hopen.2
    simp only [writerFunc, writeFile_opens hopen.1 hsome, Text.status, WriteCall.leaks]
    split_ifs with hall <;> simp [hall]
  · cases hcreats : c.env.creats with
    | false =>
      simp only [writerFunc, writeFile_fails hopen hcreats, WriteCall.leaks, hcreats]
      rfl
    | true =>
      simp only [writerFunc, writeFile_creates hopen hcreats, Text.status, WriteCall.leaks, hcreats]
      split_ifs with herr hall <;> simp [*]

/-- **The files, and the descriptors, after calls of `writer_func`.** After any calls, for any files
and whatever fails in them, each file that is there holds what it held when it was last created, or
at the start, and then what the calls since have written to it, in order. A call returns `0` if it
has opened or created its file and written its whole text, `-1` if it has written less, and `1` if
there is no file to write to. As many descriptors are left open as calls have returned `-1`, or `1`
after a `creat` that succeeded. -/
theorem writer_func_history (calls : List WriteCall) (files : Files) :
    (∀ p, (NeverCreated p (files p) calls ∧ (writerCalls calls files).1 p = none) ∨
      ∃ base since, LastCreated p (files p) calls base since ∧
        (writerCalls calls files).1 p = some (base ++ (piecesOf p since).flatten)) ∧
      (∀ before c after, calls = before ++ c :: after →
        (writerCalls calls files).2.1[before.length]? =
          some (c.returns ((writerCalls before files).1 c.fpath))) ∧
      (writerCalls calls files).2.2 =
        (calls.zip (writerCalls calls files).2.1).countP fun x => x.1.leaks x.2 := by
  refine ⟨fun p => ?_, ?_, ?_⟩
  · rw [writerCalls_fst]
    simpa only [FileHistory, foldl_putPiece_append] using writeFiles_history true calls files p
  · rintro before c after rfl
    have hone : (writerCalls (c :: after) (writerCalls before files).1).2.1[0]? =
        some (writerFunc c.env c.fpath c.buf (writerCalls before files).1).1 := by
      rw [← List.singleton_append, (writerCalls_append [c] after _).2]
      rfl
    rw [(writerCalls_append before (c :: after) files).2,
      List.getElem?_append_right (length_writerCalls before files).le, length_writerCalls,
      Nat.sub_self, hone, (writerFunc_returns c _).1]
  · induction calls using List.reverseRecOn with
    | nil => rfl
    | append_singleton calls c ih =>
      obtain ⟨hreturns, hleaks⟩ := writerFunc_returns c (writerCalls calls files).1
      rw [writerCalls_concat, List.zip_append (length_writerCalls calls files).symm,
        List.countP_append, ← ih]
      simp only [hleaks, hreturns, List.zip_cons_cons, List.zip_nil_right, List.countP_cons,
        List.countP_nil, Nat.zero_add]
      cases c.leaks (c.returns ((writerCalls calls files).1 c.fpath)) <;> rfl

/-- Of two calls on one file the second can write one byte only. -/
example : (writerCalls [⟨⟨true, true, 0, some 9⟩, ⟨[102], by decide, by decide⟩,
      ⟨[97, 98], by decide, by decide⟩⟩, ⟨⟨true, true, 0, some 1⟩, ⟨[102], by decide, by decide⟩,
      ⟨[99, 100], by decide, by decide⟩⟩] (fun _ => none)).2 = ([0, -1], 1) := by decide

end Aesd
