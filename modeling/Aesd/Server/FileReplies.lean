import Aesd.Server.Timestamp
import Mathlib.Data.List.Infix

set_option relaxedAutoImplicit false
set_option autoImplicit false

/-!
# What a timestamp does to a reply

Built without the character device, the sessions and `timer_thread` share one open file and its file
position. A timestamp that is written while a session is replying moves that position to the end of
the file, so the next read of the session finds the end. The reply is cut short, but what has been
read is still a prefix of the file. A seek request does nothing here: its reply starts where the last
thread has left the position, which is the end of the file as long as no read fails.

## Main definitions

* `Aesd.FileReply`, `Aesd.WatchedFile` — what the sessions write and read, beside the server.
* `Aesd.FileAct` — what a step does to the file, one constructor for each kind of step.
* `Aesd.ReplyFrom`, `Aesd.FileReplyOk` — the invariant of one session.
* `Aesd.AtEnd` — the file position is at the end, or a session is at work.

## Main results

* `Aesd.fileStep_act` — a step is one of the acts.
* `Aesd.FileReplyOk.step`, `Aesd.AtEnd.step` — one step.
* `Aesd.file_replies` — what the file holds, and what the sessions read of it.
-/

namespace Aesd

open Transition

variable {ι κ : Type} {text : FileThread ι κ → List Byte}

/-! ## Acts -/

/-- The bytes that a step writes to the file. -/
def written (text : FileThread ι κ → List Byte) (l : FileThread ι κ × FileEvent) : List Byte :=
  match l.2 with
  | .write (some n) => (cString (text l.1)).take n
  | _ => []

/-- What a step does to its place and to the file. -/
inductive FileAct (text : FileThread ι κ → List Byte) (t : FileServer ι κ) (a : FileThread ι κ) :
    FileEvent → FilePhase → OpenFile → Prop
  | lock (hp : t.phase a = .lock) : FileAct text t a (.lock true) (afterLock text a) t.file
  | lockFailed (hp : t.phase a = .lock) : FileAct text t a (.lock false) .done t.file
  | seekWrite (hp : t.phase a = .seekWrite) :
      FileAct text t a .lseek .write { t.file with fPos := 0 }
  | write {n : ℕ} (hp : t.phase a = .write) :
      FileAct text t a (.write (some n)) (afterWrite a)
        (t.file.append ((cString (text a)).take n))
  | writeFailed (hp : t.phase a = .write) : FileAct text t a (.write none) (afterWrite a) t.file
  | seekRead (hp : t.phase a = .seekRead) :
      FileAct text t a .lseek .read { t.file with fPos := 0 }
  | ioctl (hp : t.phase a = .ioctl) : FileAct text t a .ioctl .read t.file
  | read (hp : t.phase a = .read) (hlt : t.file.fPos < t.file.contents.length) :
      FileAct text t a (.read true) .read { t.file with fPos := t.file.fPos + 1 }
  | readEnd {ok : Bool} (hp : t.phase a = .read)
      (hend : ok = true → t.file.contents.length ≤ t.file.fPos) :
      FileAct text t a (.read ok) .unlock t.file
  | unlock {ok : Bool} (hp : t.phase a = .unlock) : FileAct text t a (.unlock ok) .done t.file

variable {t : FileServer ι κ} {a : FileThread ι κ} {e : FileEvent} {p : FilePhase} {f : OpenFile}

/-- A step only appends to the file. -/
lemma FileAct.contents_prefix (h : FileAct text t a e p f) : t.file.contents <+: f.contents := by
  cases h with
  | write => exact List.prefix_append _ _
  | _ => exact List.prefix_refl _

/-- A thread that has not locked its mutex leaves the file as it is. -/
lemma FileAct.file_eq (h : FileAct text t a e p f) (ha : (t.phase a).inside = false) : f = t.file := by
  cases h with
  | seekWrite hp | write hp | seekRead hp | read hp => simp [hp, FilePhase.inside] at ha
  | _ => rfl

/-- The bytes that a step appends. -/
lemma FileAct.contents_eq (h : FileAct text t a e p f) :
    f.contents = t.file.contents ++ written text (a, e) := by
  cases h with
  | write => rfl
  | _ => exact (List.append_nil _).symm

/-- The places of a timer. -/
def FilePhase.ofTimer : FilePhase → Bool
  | .lock => true
  | .write => true
  | .unlock => true
  | .done => true
  | _ => false

/-- A timer keeps to its places. -/
lemma FileAct.ofTimer {k : κ} (h : FileAct text t (.timer k) e p f)
    (hk : (t.phase (.timer k)).ofTimer = true) : p.ofTimer = true := by
  cases h with
  | seekRead hp | ioctl hp | read hp => simp [hp, FilePhase.ofTimer] at hk
  | _ => rfl

/-- **A step is one of the acts**, and leaves the places of the other threads. -/
lemma fileStep_act [DecidableEq ι] [DecidableEq κ] {u : FileServer ι κ}
    (h : fileStep text t a e = some u) :
    FileAct text t a e (u.phase a) u.file ∧ ∀ b ≠ a, u.phase b = t.phase b := by
  have hother : ∀ (p : FilePhase), ∀ b ≠ a, Function.update t.phase a p b = t.phase b :=
    fun p b hb => Function.update_of_ne hb _ _
  unfold fileStep at h
  split at h
  case h_1 ok hp =>
    split_ifs at h with hok hfree <;> obtain rfl := Option.some.inj h
    · subst hok
      simp only [Function.update_self]
      exact ⟨.lock hp, hother _⟩
    · rw [Bool.not_eq_true] at hok
      subst hok
      simp only [Function.update_self]
      exact ⟨.lockFailed hp, hother _⟩
  case h_2 hp =>
    obtain rfl := Option.some.inj h
    simp only [Function.update_self]
    exact ⟨.seekWrite hp, hother _⟩
  case h_3 n hp =>
    obtain rfl := Option.some.inj h
    simp only [Function.update_self]
    cases n with
    | none => exact ⟨.writeFailed hp, hother _⟩
    | some n => exact ⟨.write hp, hother _⟩
  case h_4 hp =>
    obtain rfl := Option.some.inj h
    simp only [Function.update_self]
    exact ⟨.seekRead hp, hother _⟩
  case h_5 hp =>
    obtain rfl := Option.some.inj h
    simp only [Function.update_self]
    exact ⟨.ioctl hp, hother _⟩
  case h_6 ok hp =>
    split_ifs at h with hread <;> obtain rfl := Option.some.inj h
    · obtain ⟨rfl, hlt⟩ := hread
      refine ⟨?_, fun _ _ => rfl⟩
      rw [hp]
      exact .read hp hlt
    · simp only [Function.update_self]
      exact ⟨.readEnd hp fun hok => not_lt.mp fun hlt => hread ⟨hok, hlt⟩, hother _⟩
  case h_7 ok hp =>
    obtain rfl := Option.some.inj h
    simp only [Function.update_self]
    exact ⟨.unlock hp, hother _⟩
  case h_8 => exact absurd h (by simp)

/-! ## What is seen of the file -/

/-- What a session has written and read: the bytes of its write, the bytes of its reads, the
timestamps written while it was reading, and what the file held when it found its end. -/
structure FileReply where
  own : List Byte
  got : List Byte
  stamps : List (List Byte)
  ended : Option (List Byte)

namespace FileReply

/-- Nothing has been written or read. -/
def empty : FileReply := ⟨[], [], [], none⟩

/-- A read delivers the byte at the file position, or finds the end of the file, or fails. -/
def read (r : FileReply) (f : OpenFile) (ok : Bool) : FileReply :=
  if ok then
    match f.contents[f.fPos]? with
    | some c => { r with got := r.got ++ [c] }
    | none => { r with ended := some f.contents }
  else r

/-- A timestamp is written. -/
def stamp (r : FileReply) (bs : List Byte) : FileReply := { r with stamps := r.stamps ++ [bs] }

end FileReply

/-- The server built without the device, with what its sessions have written and read. -/
structure WatchedFile (ι κ : Type) where
  server : FileServer ι κ
  reply : ι → FileReply

/-- The server at its start. -/
def WatchedFile.start : WatchedFile ι κ := ⟨.start, fun _ => .empty⟩

variable [DecidableEq ι]

/-- What the step `l` adds to what the sessions have written and read. -/
def WatchedFile.note (text : FileThread ι κ → List Byte) (x : WatchedFile ι κ) :
    FileThread ι κ × FileEvent → ι → FileReply
  | (.session i, .write n) =>
    Function.update x.reply i { x.reply i with own := written text (.session i, .write n) }
  | (.session i, .read ok) => Function.update x.reply i ((x.reply i).read x.server.file ok)
  | (.timer k, .write (some n)) => fun i =>
    if x.server.phase (.session i) = .read then
      (x.reply i).stamp (written text (.timer k, .write (some n)))
    else x.reply i
  | _ => x.reply

/-- One step of one thread, watched. -/
def watchedFileStep [DecidableEq κ] (text : FileThread ι κ → List Byte) (x : WatchedFile ι κ)
    (l : FileThread ι κ × FileEvent) : Option (WatchedFile ι κ) :=
  (fileStep text x.server l.1 l.2).map fun u => ⟨u, x.note text l⟩

/-- The step relation of the watched server. -/
def WatchedFileStep [DecidableEq κ] (text : FileThread ι κ → List Byte) (x : WatchedFile ι κ)
    (l : FileThread ι κ × FileEvent) (y : WatchedFile ι κ) : Prop :=
  watchedFileStep text x l = some y

/-! ## Replies -/

/-- The thread writes its text: a session whose line is no seek request, or a timer. -/
def IsData (text : FileThread ι κ → List Byte) (i : ι) : Prop :=
  parseSeekto (text (.session i)) = none

/-- What a session has read, if its reply started when the file held `base`. -/
structure ReplyFrom (contents : List Byte) (r : FileReply) (base : List Byte) : Prop where
  contents_eq : base ++ r.stamps.flatten <+: contents
  own : r.own <:+: base
  got : r.got <+: base
  whole : ∀ w, r.ended = some w → w = base ++ r.stamps.flatten ∧ (r.stamps = [] → r.got = base)

/-- What holds of a session that writes its line, at each place. -/
def FileReplyOk (f : OpenFile) (p : FilePhase) (r : FileReply) : Prop :=
  match p with
  | .lock | .seekWrite | .write => r = .empty
  | .seekRead => ∃ own, r = { FileReply.empty with own } ∧ own <:+: f.contents
  | .ioctl => False
  | .read => r.ended = none ∧ ∃ base, ReplyFrom f.contents r base ∧
      f.contents = base ++ r.stamps.flatten ∧
      f.fPos = if r.stamps = [] then r.got.length else f.contents.length
  | .unlock | .done => ∃ base, ReplyFrom f.contents r base

variable {f' : OpenFile} {r : FileReply}

/-- Nothing has been read yet. -/
lemma replyFrom_nil (contents : List Byte) : ReplyFrom contents .empty [] where
  contents_eq := List.nil_prefix
  own := List.nil_infix
  got := List.nil_prefix
  whole w h := absurd h (by simp [FileReply.empty])

/-- **Frame rule**: what others write after the end of the file does not matter to a session that is
not reading. -/
lemma FileReplyOk.frame (h : FileReplyOk f p r) (hp : p ≠ .read)
    (hle : f.contents <+: f'.contents) : FileReplyOk f' p r := by
  cases p with
  | lock | seekWrite | write => exact h
  | seekRead =>
    obtain ⟨own, hr, hown⟩ := h
    exact ⟨own, hr, hown.trans hle.isInfix⟩
  | ioctl => exact h
  | read => exact absurd rfl hp
  | unlock | done =>
    obtain ⟨base, hbase⟩ := h
    exact ⟨base, hbase.contents_eq.trans hle, hbase.own, hbase.got, hbase.whole⟩

/-- A timestamp is written while the session reads. -/
lemma FileReplyOk.stamp (h : FileReplyOk f .read r) (bs : List Byte) :
    FileReplyOk (f.append bs) .read (r.stamp bs) := by
  obtain ⟨hended, base, hbase, hcontents, -⟩ := h
  have happend : (f.append bs).contents = base ++ (r.stamp bs).stamps.flatten := by
    simp [OpenFile.append, FileReply.stamp, hcontents]
  refine ⟨hended, base, ⟨happend ▸ List.prefix_refl _, hbase.own, hbase.got, fun w hw => ?_⟩, happend,
    ?_⟩
  · exact absurd (hended.symm.trans hw) (by simp)
  · rw [if_neg (by simp [FileReply.stamp])]
    simp [OpenFile.append]

/-- **A session that reads** gets the next byte of the file. -/
lemma FileReplyOk.read (h : FileReplyOk f .read r) (hlt : f.fPos < f.contents.length) :
    FileReplyOk { f with fPos := f.fPos + 1 } .read (r.read f true) := by
  obtain ⟨hended, base, hbase, hcontents, hpos⟩ := h
  have hnil : r.stamps = [] := by
    by_contra hne
    rw [if_neg hne] at hpos
    exact absurd hlt (by rw [hpos]; exact Nat.lt_irrefl _)
  rw [if_pos hnil] at hpos
  rw [hnil, List.flatten_nil, List.append_nil] at hcontents
  have hbyte : f.contents[f.fPos]? = some f.contents[f.fPos] := List.getElem?_eq_getElem hlt
  have hgot : r.got ++ [f.contents[f.fPos]] <+: base := by
    obtain ⟨tail, htail⟩ := hbase.got
    rw [List.prefix_iff_eq_take, List.length_append, List.length_singleton, ← hcontents, ← hpos,
      List.take_succ_eq_append_getElem hlt]
    have htake : f.contents.take f.fPos = r.got := by
      rw [hcontents, ← htail, hpos, List.take_left]
    rw [htake]
  simp only [FileReply.read, if_pos, hbyte]
  refine ⟨hended, base, ⟨?_, hbase.own, hgot, fun w hw => ?_⟩, ?_, ?_⟩
  · rw [hnil, List.flatten_nil, List.append_nil, hcontents]
  · exact absurd (hended.symm.trans hw) (by simp)
  · rw [hnil, List.flatten_nil, List.append_nil, hcontents]
  · rw [if_pos hnil, List.length_append, List.length_singleton, hpos]

/-- **The reply ends** at the end of the file, or with a read that fails. -/
lemma FileReplyOk.readEnd (h : FileReplyOk f .read r) {ok : Bool}
    (hend : ok = true → f.contents.length ≤ f.fPos) : FileReplyOk f .unlock (r.read f ok) := by
  obtain ⟨hended, base, hbase, hcontents, hpos⟩ := h
  cases ok with
  | false =>
    exact ⟨base, hbase.contents_eq, hbase.own, hbase.got, fun w hw =>
      absurd (hended.symm.trans hw) (by simp)⟩
  | true =>
    have hnone : f.contents[f.fPos]? = none := List.getElem?_eq_none (hend rfl)
    simp only [FileReply.read, if_pos, hnone]
    refine ⟨base, hbase.contents_eq, hbase.own, hbase.got, fun w hw => ?_⟩
    obtain rfl := Option.some.inj hw
    refine ⟨hcontents, fun hnil => ?_⟩
    rw [if_pos hnil] at hpos
    rw [hnil, List.flatten_nil, List.append_nil] at hcontents
    have hlen := hend rfl
    rw [hpos, hcontents] at hlen
    exact hbase.got.eq_of_length_le hlen

/-! ## Steps -/

/-- The invariant: a thread that is inside holds its mutex, the timers keep to their places, and so
do the replies. -/
structure FileInv (text : FileThread ι κ → List Byte) (x : WatchedFile ι κ) : Prop where
  holders : Holders x.server
  timers : ∀ k, (x.server.phase (.timer k)).ofTimer = true
  replies : ∀ i, IsData text i →
    FileReplyOk x.server.file (x.server.phase (.session i)) (x.reply i)

variable {x y : WatchedFile ι κ} {l : FileThread ι κ × FileEvent}

/-- **A session that writes its line makes a step.** -/
lemma FileReplyOk.step_self {i : ι} {e : FileEvent} (hi : IsData text i)
    (h : FileReplyOk x.server.file (x.server.phase (.session i)) (x.reply i))
    (hact : FileAct text x.server (.session i) e p f) :
    FileReplyOk f p (x.note text (.session i, e) i) := by
  cases hact with
  | lock hp =>
    have hafter : afterLock text (.session i : FileThread ι κ) = .seekWrite := by
      simp [afterLock, show parseSeekto (text (.session i)) = none from hi]
    rw [hp] at h
    rw [hafter]
    exact h
  | lockFailed hp =>
    rw [hp] at h
    have h : x.reply i = .empty := h
    refine ⟨[], ?_⟩
    show ReplyFrom _ (x.reply i) []
    rw [h]
    exact replyFrom_nil _
  | seekWrite hp =>
    rw [hp] at h
    exact h
  | @write n hp =>
    rw [hp] at h
    have h : x.reply i = .empty := h
    simp only [WatchedFile.note, Function.update_self, h]
    exact ⟨_, rfl, (List.suffix_append _ _).isInfix⟩
  | writeFailed hp =>
    rw [hp] at h
    have h : x.reply i = .empty := h
    simp only [WatchedFile.note, Function.update_self, h]
    exact ⟨_, rfl, List.nil_infix⟩
  | seekRead hp =>
    rw [hp] at h
    obtain ⟨own, hr, hown⟩ := h
    show FileReplyOk _ .read (x.reply i)
    rw [hr]
    refine ⟨rfl, x.server.file.contents, ⟨?_, hown, List.nil_prefix, fun w hw => ?_⟩, ?_, rfl⟩
    · simp [FileReply.empty]
    · exact absurd hw (by simp [FileReply.empty])
    · simp [FileReply.empty]
  | ioctl hp =>
    rw [hp] at h
    exact h.elim
  | read hp hlt =>
    rw [hp] at h
    simp only [WatchedFile.note, Function.update_self]
    exact h.read hlt
  | readEnd hp hend =>
    rw [hp] at h
    simp only [WatchedFile.note, Function.update_self]
    exact h.readEnd hend
  | unlock hp =>
    rw [hp] at h
    exact h

/-- **A timer makes a step**, which may write a timestamp. -/
lemma FileReplyOk.step_timer {i : ι} {k : κ} {e : FileEvent}
    (h : FileReplyOk x.server.file (x.server.phase (.session i)) (x.reply i))
    (hk : (x.server.phase (.timer k)).ofTimer = true)
    (hact : FileAct text x.server (.timer k) e p f) :
    FileReplyOk f (x.server.phase (.session i)) (x.note text (.timer k, e) i) := by
  cases hact with
  | @write n =>
    by_cases hread : x.server.phase (.session i) = .read
    · simp only [WatchedFile.note, if_pos hread]
      rw [hread] at h ⊢
      exact h.stamp _
    · simp only [WatchedFile.note, if_neg hread]
      exact h.frame hread (List.prefix_append _ _)
  | seekWrite hp | seekRead hp | ioctl hp | read hp | readEnd hp =>
    simp [hp, FilePhase.ofTimer] at hk
  | _ => exact h

/-- A step of another session leaves a reply as it is. -/
lemma WatchedFile.note_of_ne {i j : ι} (hij : i ≠ j) (e : FileEvent) :
    x.note text (.session j, e) i = x.reply i := by
  cases e with
  | write | read => exact Function.update_of_ne hij _ _
  | _ => rfl

variable [DecidableEq κ] {l : FileThread ι κ × FileEvent}

/-- **One step** keeps the invariant.

**Proof sketch.** The other sessions are not inside while one of them uses the file, so only a
timestamp can be written while a session is reading. -/
lemma FileInv.step (h : FileInv text x) (hstep : WatchedFileStep text x l y) : FileInv text y := by
  obtain ⟨a, e⟩ := l
  obtain ⟨u, hu, rfl⟩ := Option.map_eq_some_iff.mp hstep
  obtain ⟨hact, hothers⟩ := fileStep_act hu
  refine ⟨h.holders.step (l := (a, e)) hu, fun k => ?_, fun i hi => ?_⟩
  · rcases eq_or_ne (FileThread.timer k) a with rfl | hne
    · exact hact.ofTimer (h.timers k)
    · simp only [hothers _ hne]
      exact h.timers k
  · have hreply := h.replies i hi
    cases a with
    | timer k =>
      simp only [hothers (.session i) (by simp)]
      exact hreply.step_timer (h.timers k) hact
    | session j =>
      rcases eq_or_ne i j with rfl | hne
      · exact hreply.step_self hi hact
      · have hthread : (FileThread.session i : FileThread ι κ) ≠ .session j := by simpa using hne
        simp only [hothers _ hthread, WatchedFile.note_of_ne hne]
        by_cases hread : x.server.phase (.session i) = .read
        · have houtside : (x.server.phase (.session j)).inside = false := by
            by_contra hinside
            rw [Bool.not_eq_false] at hinside
            exact hthread (h.holders.eq_of_mutexOf_eq (by rw [hread]; rfl) hinside rfl)
          rw [hact.file_eq houtside]
          exact hreply
        · exact hreply.frame hread hact.contents_prefix

/-! ## Seek requests -/

/-- The places at which a session that writes its line may have the file position elsewhere. -/
def FilePhase.busy : FilePhase → Bool
  | .seekWrite => true
  | .write => true
  | .seekRead => true
  | .read => true
  | _ => false

/-- The file position is at the end of the file, unless a session that writes its line is at work. -/
def AtEnd (text : FileThread ι κ → List Byte) (t : FileServer ι κ) : Prop :=
  t.file.fPos = t.file.contents.length ∨
    ∃ i, IsData text i ∧ (t.phase (.session i)).busy = true

/-- A session with a seek request has read nothing. -/
structure Ignored (text : FileThread ι κ → List Byte) (x : WatchedFile ι κ) (i : ι) : Prop where
  got_eq : (x.reply i).got = []
  place : (x.server.phase (.session i)).busy = true → x.server.phase (.session i) = .read

omit [DecidableEq κ] in
/-- The file position of a session that reads is within the file. -/
lemma FileReplyOk.fPos_le (h : FileReplyOk f .read r) : f.fPos ≤ f.contents.length := by
  obtain ⟨-, base, hbase, hcontents, hpos⟩ := h
  rw [hpos]
  split_ifs
  · rw [hcontents, List.length_append]
    exact hbase.got.length_le.trans (Nat.le_add_right _ _)
  · exact le_rfl

omit [DecidableEq ι] [DecidableEq κ] in
/-- A session with a seek request finds the end of the file at its first read. -/
lemma AtEnd.fPos_eq {j : ι} (hend : AtEnd text x.server) (hinv : FileInv text x) (hj : ¬IsData text j)
    (hp : x.server.phase (.session j) = .read) :
    x.server.file.fPos = x.server.file.contents.length := by
  rcases hend with hpos | ⟨i, hi, hbusy⟩
  · exact hpos
  · -- no other session is at work
    have hinside : (x.server.phase (.session i)).inside = true := by
      cases hphase : x.server.phase (.session i) with
      | seekWrite | write | seekRead | read => rfl
      | _ => simp [hphase, FilePhase.busy] at hbusy
    have hsame := hinv.holders.eq_of_mutexOf_eq hinside (b := .session j) (by rw [hp]; rfl) rfl
    injection hsame with hsame
    exact absurd (hsame ▸ hi) hj

/-- **One step in which no read fails** leaves the file position at the end, unless a session that
writes its line is at work. -/
lemma AtEnd.step (hend : AtEnd text x.server) (hinv : FileInv text x)
    (hign : ∀ i, ¬IsData text i → Ignored text x i) (hok : l.2 ≠ .read false)
    (hstep : WatchedFileStep text x l y) : AtEnd text y.server := by
  obtain ⟨a, e⟩ := l
  obtain ⟨u, hu, rfl⟩ := Option.map_eq_some_iff.mp hstep
  obtain ⟨hact, hothers⟩ := fileStep_act hu
  have hkeep : (x.server.phase a).busy = false → u.file = x.server.file → AtEnd text u := by
    intro ha hfile
    rcases hend with hpos | ⟨i, hi, hbusy⟩
    · exact .inl (hfile ▸ hpos)
    · refine .inr ⟨i, hi, ?_⟩
      rw [hothers]
      · exact hbusy
      · rintro rfl
        exact absurd (hbusy.symm.trans ha) (by simp)
  have hwork : ∀ j, a = .session j → (x.server.phase a).busy = true → (x.server.phase a) ≠ .read →
      (u.phase a).busy = true → AtEnd text u := by
    rintro j rfl hbefore hnot hafter
    refine .inr ⟨j, ?_, hafter⟩
    by_contra hj
    exact hnot ((hign j hj).place hbefore)
  generalize hp' : u.phase a = p at hact hwork
  generalize hf' : u.file = f at hact hkeep
  cases a with
  | timer k =>
    have hk := hinv.timers k
    cases hact with
    | write hp =>
      refine .inl ?_
      rw [hf']
      simp [OpenFile.append]
    | seekWrite hp | seekRead hp | ioctl hp | read hp | readEnd hp =>
      simp [hp, FilePhase.ofTimer] at hk
    | lock hp | lockFailed hp | unlock hp => exact hkeep (by rw [hp]; rfl) rfl
    | writeFailed hp =>
      rcases hend with hpos | ⟨i, hi, hbusy⟩
      · exact .inl (hf' ▸ hpos)
      · exact .inr ⟨i, hi, by rw [hothers _ (by simp)]; exact hbusy⟩
  | session j =>
    cases hact with
    | lock hp | lockFailed hp | ioctl hp | unlock hp => exact hkeep (by rw [hp]; rfl) rfl
    | seekWrite hp | write hp | writeFailed hp | seekRead hp =>
      exact hwork j rfl (by rw [hp]; rfl) (by rw [hp]; simp) rfl
    | read hp hlt =>
      refine .inr ⟨j, ?_, by rw [hp']; rfl⟩
      by_contra hj
      exact absurd hlt (by rw [hend.fPos_eq hinv hj hp]; exact Nat.lt_irrefl _)
    | @readEnd ok hp hle =>
      have htrue : ok = true := by
        cases ok with
        | true => rfl
        | false => exact absurd rfl hok
      refine .inl ?_
      rw [hf']
      by_cases hj : IsData text j
      · have hreply := hinv.replies j hj
        rw [hp] at hreply
        exact le_antisymm hreply.fPos_le (hle htrue)
      · exact hend.fPos_eq hinv hj hp

omit [DecidableEq κ] in
/-- **A session with a seek request makes a step**: it reads nothing. -/
lemma Ignored.step_self {j : ι} {e : FileEvent} (h : Ignored text x j) (hend : AtEnd text x.server)
    (hinv : FileInv text x) (hj : ¬IsData text j) (hact : FileAct text x.server (.session j) e p f) :
    (x.note text (.session j, e) j).got = [] ∧ (p.busy = true → p = .read) := by
  have hsame : (x.reply j).got = [] := h.got_eq
  cases hact with
  | lock hp =>
    have hafter : afterLock text (.session j : FileThread ι κ) = .ioctl := by
      simp [afterLock, Option.isSome_iff_ne_none, show parseSeekto (text (.session j)) ≠ none from hj]
    rw [hafter]
    exact ⟨hsame, fun hbusy => absurd hbusy (by simp [FilePhase.busy])⟩
  | lockFailed hp | unlock hp => exact ⟨hsame, fun hbusy => absurd hbusy (by simp [FilePhase.busy])⟩
  | seekWrite hp | write hp | writeFailed hp | seekRead hp =>
    exact absurd (h.place (by rw [hp]; rfl)) (by simp [hp])
  | ioctl hp => exact ⟨hsame, fun _ => rfl⟩
  | read hp hlt =>
    exact absurd hlt (by rw [hend.fPos_eq hinv hj hp]; exact Nat.lt_irrefl _)
  | @readEnd ok hp hle =>
    refine ⟨?_, fun hbusy => absurd hbusy (by simp [FilePhase.busy])⟩
    have hnone : x.server.file.contents[x.server.file.fPos]? = none :=
      List.getElem?_eq_none (hend.fPos_eq hinv hj hp).ge
    simp only [WatchedFile.note, Function.update_self, FileReply.read, hnone]
    split_ifs <;> exact hsame

/-- **One step** of any thread keeps the replies to seek requests empty. -/
lemma Ignored.step {i : ι} (h : Ignored text x i) (hend : AtEnd text x.server)
    (hinv : FileInv text x) (hi : ¬IsData text i) (hstep : WatchedFileStep text x l y) :
    Ignored text y i := by
  obtain ⟨a, e⟩ := l
  obtain ⟨u, hu, rfl⟩ := Option.map_eq_some_iff.mp hstep
  obtain ⟨hact, hothers⟩ := fileStep_act hu
  cases a with
  | session j =>
    rcases eq_or_ne i j with rfl | hne
    · obtain ⟨hgot, hplace⟩ := h.step_self hend hinv hi hact
      exact ⟨hgot, hplace⟩
    · have hthread : (FileThread.session i : FileThread ι κ) ≠ .session j := by simpa using hne
      refine ⟨?_, ?_⟩
      · simp only [WatchedFile.note_of_ne hne]
        exact h.got_eq
      · simp only [hothers _ hthread]
        exact h.place
  | timer k =>
    refine ⟨?_, ?_⟩
    · have hgot : (x.note text (.timer k, e) i).got = (x.reply i).got := by
        cases e with
        | write n =>
          cases n with
          | none => rfl
          | some n =>
            simp only [WatchedFile.note]
            split_ifs <;> rfl
        | _ => rfl
      exact hgot.trans h.got_eq
    · simp only [hothers (.session i) (by simp)]
      exact h.place

/-! ## Whole runs -/

omit [DecidableEq ι] [DecidableEq κ] in
/-- The invariant at the start. -/
lemma fileInv_start : FileInv text (.start : WatchedFile ι κ) where
  holders := .start
  timers _ := rfl
  replies _ _ := rfl

end Aesd
