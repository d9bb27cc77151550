import Aesd.Server.Contract
import Aesd.Server.FileReplies
import Aesd.Server.StreamSplit

set_option relaxedAutoImplicit false
set_option autoImplicit false

/-!
# The two builds of the server

`USE_AESD_CHAR_DEVICE` decides where the server keeps the lines of its clients: in the character
device, which holds ten commands, or in a file, which holds all of them. As long as no timestamp is
written, and with clients that send lines and no seek requests, the sessions of the build with the
file are threads with one mutex, too, and each of them appends its line and replies with the whole
file. A client of the build with the device receives the end of that reply, and all of it for the
first ten sessions.

## Main definitions

* `Aesd.FileSessionStep`, `Aesd.fileProtocol` — the sessions as threads with one mutex.
* `Aesd.FileServe` — what a session does to the file, and its reply.
* `Aesd.replyLoop`, `Aesd.WatchedFile.sent` — what the reply loop sends of what it reads.

## Main results

* `Aesd.run_fileThreads` — a run of the server is one of these threads.
* `Aesd.reply_of_fileThreads` — what the sessions read.
* `Aesd.PieceCalls.replyLoop_eq` — the reply loop sends the lines of what it reads.
* `Aesd.builds_agree` — the replies of the two builds.
-/

namespace Aesd

open CriticalSections Transition

variable {ι κ : Type}

/-! ## The sessions of the build with the file -/

/-- The place of a session with respect to its critical section. -/
def FilePhase.phase : FilePhase → Phase
  | .lock => .before
  | .done => .after
  | _ => .inside

/-- The step takes the mutex. -/
def FileEvent.isLock : FileEvent → Bool
  | .lock true => true
  | _ => false

/-- What the sessions share: the holder of `fd_mutex`, and the file. -/
structure SharedFile (ι : Type) where
  mutex : Option ι
  file : OpenFile

/-- A session: its place, and what it has written and read. -/
structure FileSession where
  phase : FilePhase
  reply : FileReply

/-- One step of session `i`, which writes this line, while everything that may fail succeeds. -/
inductive FileSessionStep (line : List Byte) (i : ι) (g : SharedFile ι) (s : FileSession) :
    FileEvent → SharedFile ι → FileSession → Prop
  | lock (hp : s.phase = .lock) (hfree : g.mutex = none) :
      FileSessionStep line i g s (.lock true) ⟨some i, g.file⟩ ⟨.seekWrite, s.reply⟩
  | seekWrite (hp : s.phase = .seekWrite) :
      FileSessionStep line i g s .lseek ⟨g.mutex, { g.file with fPos := 0 }⟩ ⟨.write, s.reply⟩
  | write (hp : s.phase = .write) :
      FileSessionStep line i g s (.write (some line.length)) ⟨g.mutex, g.file.append line⟩
        ⟨.seekRead, { s.reply with own := line }⟩
  | seekRead (hp : s.phase = .seekRead) :
      FileSessionStep line i g s .lseek ⟨g.mutex, { g.file with fPos := 0 }⟩ ⟨.read, s.reply⟩
  | read (hp : s.phase = .read) (hlt : g.file.fPos < g.file.contents.length) :
      FileSessionStep line i g s (.read true) ⟨g.mutex, { g.file with fPos := g.file.fPos + 1 }⟩
        ⟨.read, s.reply.read g.file true⟩
  | readEnd (hp : s.phase = .read) (hend : g.file.contents.length ≤ g.file.fPos) :
      FileSessionStep line i g s (.read true) g ⟨.unlock, s.reply.read g.file true⟩
  | unlock (hp : s.phase = .unlock) :
      FileSessionStep line i g s (.unlock true) ⟨none, g.file⟩ ⟨.done, s.reply⟩

/-- The sessions as threads with one mutex. -/
def fileProtocol (lines : ι → List Byte) : Protocol ι (SharedFile ι) FileSession FileEvent where
  step i g s e g' s' := FileSessionStep (lines i) i g s e g' s'
  isLock := FileEvent.isLock
  phase s := s.phase.phase
  holder g := g.mutex
  before_step h hphase hlock := by
    cases h with
    | lock => exact absurd hlock (by decide)
    | seekWrite hp | write hp | seekRead hp | read hp | readEnd hp | unlock hp =>
      simp [hp, FilePhase.phase] at hphase
  lock_step h hlock := by
    cases h with
    | lock hp hfree => exact ⟨by rw [hp]; rfl, rfl, hfree, rfl⟩
    | _ => exact absurd hlock (by simp [FileEvent.isLock])
  inside_step h hphase := by
    cases h with
    | lock hp => simp [hp, FilePhase.phase] at hphase
    | unlock => exact ⟨by simp [FilePhase.phase], fun h => by simp [FilePhase.phase] at h⟩
    | _ => exact ⟨by simp [FilePhase.phase], fun _ => rfl⟩
  after_step h hphase := by
    cases h with
    | lock hp | seekWrite hp | write hp | seekRead hp | read hp | readEnd hp | unlock hp =>
      simp [hp, FilePhase.phase] at hphase

/-! ## One critical section -/

/-- What a session does: it appends its line to the file, and its reply is the file. -/
def FileServe (c : List Byte) (l : List Byte × List Byte) (c' : List Byte) : Prop :=
  c' = c ++ l.1 ∧ l.2 = c'

/-- The session has taken the mutex when the file held `c`. -/
structure AtFile (c line : List Byte) (i : ι) (g : SharedFile ι) (s : FileSession) : Prop where
  mutex_eq : g.mutex = if s.phase = .done then none else some i
  at_phase : match s.phase with
    | .lock | .ioctl => False
    | .seekWrite | .write => g.file.contents = c ∧ s.reply.got = []
    | .seekRead => g.file.contents = c ++ line ∧ s.reply.got = []
    | .read => g.file.contents = c ++ line ∧ s.reply.got = (c ++ line).take g.file.fPos
    | .unlock | .done => g.file.contents = c ++ line ∧ s.reply.got = c ++ line

variable {lines : ι → List Byte} {c line : List Byte} {i : ι} {g g' : SharedFile ι}
  {s s' : FileSession} {e : FileEvent}

/-- **One step in a critical section.** -/
lemma AtFile.step (h : AtFile c line i g s) (hstep : FileSessionStep line i g s e g' s') :
    AtFile c line i g' s' := by
  obtain ⟨hmutex, hat⟩ := h
  cases hstep with
  | lock hp => simp [hp] at hat
  | seekWrite hp =>
    simp only [hp] at hmutex hat
    exact ⟨hmutex, hat⟩
  | write hp =>
    simp only [hp] at hmutex hat
    exact ⟨hmutex, by rw [OpenFile.append, hat.1], hat.2⟩
  | seekRead hp =>
    simp only [hp] at hmutex hat
    exact ⟨hmutex, hat.1, by rw [hat.2, List.take_zero]⟩
  | read hp hlt =>
    simp only [hp] at hmutex hat
    have hbyte : g.file.contents[g.file.fPos]? = some g.file.contents[g.file.fPos] :=
      List.getElem?_eq_getElem hlt
    refine ⟨hmutex, hat.1, ?_⟩
    simp only [FileReply.read, if_pos, hbyte, hat.2, ← hat.1]
    exact (List.take_succ_eq_append_getElem hlt).symm
  | readEnd hp hend =>
    simp only [hp] at hmutex hat
    have hnone : g.file.contents[g.file.fPos]? = none := List.getElem?_eq_none hend
    refine ⟨hmutex, hat.1, ?_⟩
    simp only [FileReply.read, if_pos, hnone, hat.2]
    exact List.take_of_length_le (hat.1 ▸ hend)
  | unlock hp =>
    simp only [hp] at hat
    exact ⟨rfl, hat⟩

/-- Before its critical section a session has done nothing. -/
def Untouched (_ : ι) (s : FileSession) : Prop := s = ⟨.lock, .empty⟩

/-- What the file holds between two critical sections. -/
def FileHolds (g : SharedFile ι) (c : List Byte) : Prop := g.file.contents = c

/-- **A critical section from its start.** -/
lemma atFile_of_section {k : FileEvent} {ks : List FileEvent} (hg : FileHolds g c)
    (hs : Untouched i s) (hk : k.isLock = true)
    (h : Run ((fileProtocol lines).Alone i) (g, s) (k :: ks) (g', s')) :
    AtFile c (lines i) i g' s' := by
  obtain ⟨⟨g₁, s₁⟩, hfirst, hrest⟩ := h.uncons
  have hlocked : AtFile c (lines i) i g₁ s₁ := by
    have hfirst : FileSessionStep (lines i) i g s k g₁ s₁ := hfirst
    cases hfirst with
    | lock hp hfree => exact ⟨rfl, hg, by rw [show s = ⟨.lock, .empty⟩ from hs]; rfl⟩
    | _ => exact absurd hk (by simp [FileEvent.isLock])
  exact hrest.invariant (I := fun y : SharedFile ι × FileSession => AtFile c (lines i) i y.1 y.2)
    hlocked fun _ _ _ hy hstep => hy.step hstep

/-- A session that has given the mutex back has served its client. -/
lemma AtFile.served (h : AtFile c line i g s) (hfree : g.mutex = none) :
    s.phase = .done ∧ FileServe c (line, s.reply.got) g.file.contents := by
  have hdone : s.phase = .done := by
    by_contra hne
    exact absurd (hfree.symm.trans h.mutex_eq) (by simp [hne])
  have hat := h.at_phase
  simp only [hdone] at hat
  exact ⟨hdone, hat.1, hat.2.trans hat.1.symm⟩

/-- Without a step that takes the mutex nothing happens. -/
lemma Untouched.step (h : Untouched i s) (he : e.isLock = false)
    (hstep : FileSessionStep line i g s e g' s') : False := by
  have hs : s = ⟨.lock, .empty⟩ := h
  cases hstep with
  | lock => exact absurd he (by decide)
  | seekWrite hp | write hp | seekRead hp | read hp | readEnd hp | unlock hp => simp [hs] at hp

/-! ## The replies -/

/-- **The replies one after the other.** -/
lemma reply_of_run {os : List (List Byte × List Byte)} {c' : List Byte} (h : Run FileServe c os c') :
    c' = c ++ (os.map Prod.fst).flatten ∧ ∀ pre o post, os = pre ++ o :: post →
      o.2 = c ++ ((pre ++ [o]).map Prod.fst).flatten := by
  induction h with
  | nil => exact ⟨by simp, fun pre o post hos => by simp at hos⟩
  | @snoc os l b d _ hserve ih =>
    obtain ⟨hd, hl⟩ := hserve
    obtain ⟨hb, hreplies⟩ := ih
    have hd' : d = c ++ ((os ++ [l]).map Prod.fst).flatten := by
      rw [hd, hb, List.append_assoc, List.map_append, List.flatten_append]
      simp
    refine ⟨hd', fun pre o post hos => ?_⟩
    rcases List.eq_nil_or_concat' post with rfl | ⟨post, k, rfl⟩
    · obtain ⟨rfl, hol⟩ := List.append_inj' hos rfl
      obtain rfl := List.singleton_inj.mp hol
      exact hl.trans hd'
    · rw [← List.cons_append, ← List.append_assoc] at hos
      obtain ⟨hinit, -⟩ := List.append_inj' hos rfl
      exact hreplies pre o post hinit

/-- The sessions before any of them has done a step. -/
def fileThreadsStart : Threads ι (SharedFile ι) FileSession :=
  ⟨⟨none, ⟨[], 0⟩⟩, fun _ => ⟨.lock, .empty⟩⟩

variable [DecidableEq ι]

/-- **The reply of a session that is done** is its line after the lines of all sessions that took the
mutex before it.

**Proof sketch.** The run is linearized. A session that is done is not the one that still holds the
mutex. -/
lemma reply_of_fileThreads {ks : List (ι × FileEvent)} {u : Threads ι (SharedFile ι) FileSession}
    (h : Run (fileProtocol lines).Step fileThreadsStart ks u) {pre post : List ι}
    (horder : order FileEvent.isLock ks = pre ++ i :: post) (hdone : (u.loc i).phase = .done) :
    (u.loc i).reply.got = ((pre ++ [i]).map lines).flatten := by
  have hstart : ∀ j, (fileProtocol lines).phase ((fileThreadsStart (ι := ι)).loc j) ≠ .inside :=
    fun j => by simp [fileProtocol, fileThreadsStart, FilePhase.phase]
  have huntouched : ∀ j, Untouched j ((fileThreadsStart (ι := ι)).loc j) := fun _ => rfl
  have hready : ∀ v, Run (fileProtocol lines).Step fileThreadsStart
      (preparation FileEvent.isLock [] ks) v → ∀ j, Untouched j (v.loc j) := by
    intro v hv
    refine (hv.guard fun l hl => not_lock_of_mem_preparation hl).invariant
      (I := fun v : Threads ι (SharedFile ι) FileSession => ∀ j, Untouched j (v.loc j))
      huntouched ?_
    rintro v l w hv' ⟨hl, g, s, hstep, -⟩
    exact ((hv' l.1).step hl hstep).elim
  have hsection : ∀ j g s c k ks g' s', FileHolds g c → Untouched j s → k.isLock = true →
      Run ((fileProtocol lines).Alone j) (g, s) (k :: ks) (g', s') → g'.mutex = none →
      ∃ c', FileServe c (lines j, s'.reply.got) c' ∧ FileHolds g' c' := by
    intro j g s c k ks g' s' hg hs hk h hfree
    exact ⟨_, ((atFile_of_section hg hs hk h).served hfree).2, rfl⟩
  have hempty : FileHolds (fileThreadsStart (ι := ι)).shared [] := rfl
  obtain ⟨-, finished, rest, c', hlin⟩ := Protocol.linearize (M := fileProtocol lines) hstart hready
    hsection hempty h
  have horder' : finished ++ rest = pre ++ i :: post := hlin.order_eq.symm.trans horder
  have hi : i ∉ rest := by
    intro hi
    obtain ⟨hheld, g, s, k, ks, hg, hs, hk, hrun⟩ := hlin.pending i hi
    have hmutex := (atFile_of_section hg hs hk hrun).mutex_eq
    rw [if_pos hdone] at hmutex
    exact hheld hmutex
  have hfinished : ∃ post', finished = pre ++ i :: post' := by
    rcases List.append_eq_append_iff.mp horder' with ⟨mid, rfl, hmid⟩ | ⟨mid, rfl, hmid⟩
    · exact absurd (hmid ▸ List.mem_append_right _ List.mem_cons_self) hi
    · cases mid with
      | nil =>
        rw [List.nil_append] at hmid
        exact absurd (hmid ▸ List.mem_cons_self) hi
      | cons j mid =>
        obtain ⟨rfl, -⟩ := List.cons.inj hmid
        exact ⟨mid, rfl⟩
  obtain ⟨post', rfl⟩ := hfinished
  obtain ⟨-, hreplies⟩ := reply_of_run hlin.run
  have hreply := hreplies (pre.map fun j => (lines j, (u.loc j).reply.got))
    (lines i, (u.loc i).reply.got) (post'.map fun j => (lines j, (u.loc j).reply.got)) (by simp)
  rw [List.nil_append] at hreply
  simpa [List.map_map, Function.comp_def] using hreply

/-! ## The server as threads -/

omit [DecidableEq ι] in
/-- The session of a thread that is one. -/
def FileThread.session? : FileThread ι κ → Option ι
  | .session i => some i
  | .timer _ => none

/-- The sessions of the server as threads. -/
def WatchedFile.threads (x : WatchedFile ι κ) : Threads ι (SharedFile ι) FileSession :=
  ⟨⟨(x.server.mutex .fdMutex).bind FileThread.session?, x.server.file⟩,
    fun i => ⟨x.server.phase (.session i), x.reply i⟩⟩

/-- A step of a session, as one of the threads. -/
def sessionLabel : FileThread ι κ × FileEvent → Option (ι × FileEvent)
  | (.session i, e) => some (i, e)
  | (.timer _, _) => none

/-- Everything that may fail in a step of a session succeeds, and no timer writes a timestamp. -/
def FileSucceeds (text : FileThread ι κ → List Byte) : FileThread ι κ × FileEvent → Prop
  | (.session _, .lock ok) => ok = true
  | (.session i, .write n) => n = some (text (.session i)).length
  | (.session _, .read ok) => ok = true
  | (.session _, .unlock ok) => ok = true
  | (.session _, _) => True
  | (.timer _, e) => ∀ n, e ≠ .write (some n)

variable [DecidableEq κ] {text : FileThread ι κ → List Byte} {x y : WatchedFile ι κ}

/-- The holders of the mutexes after a step of a thread. -/
def mutexAfter (m : MutexObject → Option (FileThread ι κ)) (a : FileThread ι κ) :
    FileEvent → MutexObject → Option (FileThread ι κ)
  | .lock true => Function.update m (mutexOf a) (some a)
  | .unlock true => Function.update m (mutexOf a) none
  | _ => m

omit [DecidableEq ι] [DecidableEq κ] in
lemma mutexAfter_of_ne (m : MutexObject → Option (FileThread ι κ)) (a : FileThread ι κ)
    (hlock : e ≠ .lock true) (hunlock : e ≠ .unlock true) : mutexAfter m a e = m := by
  unfold mutexAfter
  split
  · exact absurd rfl hlock
  · exact absurd rfl hunlock
  · rfl

/-- **What a step does to the mutexes.** -/
lemma fileStep_mutex {t u : FileServer ι κ} {a : FileThread ι κ} (h : fileStep text t a e = some u) :
    u.mutex = mutexAfter t.mutex a e ∧ (e = .lock true → t.mutex (mutexOf a) = none) := by
  unfold fileStep at h
  split at h
  case h_1 ok hp =>
    split_ifs at h with hok hfree <;> obtain rfl := Option.some.inj h
    · subst hok
      exact ⟨rfl, fun _ => Option.isNone_iff_eq_none.mp hfree⟩
    · exact ⟨(mutexAfter_of_ne _ _ (by simpa using hok) (by simp)).symm,
        fun h => absurd h (by simpa using hok)⟩
  case h_6 ok hp =>
    split_ifs at h <;> obtain rfl := Option.some.inj h <;> exact ⟨rfl, fun h => by simp at h⟩
  case h_7 ok hp =>
    obtain rfl := Option.some.inj h
    refine ⟨?_, fun h => by simp at h⟩
    cases ok <;> rfl
  case h_8 => exact absurd h (by simp)
  all_goals
    obtain rfl := Option.some.inj h
    exact ⟨rfl, fun h => by simp at h⟩

/-- **A step of a session** is one of the threads. -/
lemma threads_session {i : ι} {e : FileEvent} (hinv : FileInv text x)
    (hline : EchoLine (text (.session i))) (hok : FileSucceeds text (.session i, e))
    (h : WatchedFileStep text x (.session i, e) y) :
    (fileProtocol fun i => text (.session i)).Step x.threads (i, e) y.threads := by
  obtain ⟨u, hu, rfl⟩ := Option.map_eq_some_iff.mp h
  obtain ⟨hact, hothers⟩ := fileStep_act hu
  obtain ⟨hmutex, hfree⟩ := fileStep_mutex hu
  refine ⟨⟨(u.mutex .fdMutex).bind FileThread.session?, u.file⟩,
    ⟨u.phase (.session i), x.note text (.session i, e) i⟩, ?_, ?_⟩
  · rw [hmutex]
    generalize u.phase (.session i) = p at hact
    generalize u.file = f at hact
    show FileSessionStep (text (.session i)) i x.threads.shared (x.threads.loc i) e _ _
    have hcut : (cString (text (.session i))).take (text (.session i)).length =
        text (.session i) := by
      rw [hline.userBuf_eq.1, List.take_length]
    cases hact with
    | lock hp =>
      have hafter : afterLock text (.session i : FileThread ι κ) = .seekWrite := by
        simp [afterLock, hline.not_seek]
      rw [hafter]
      have hnone : x.server.mutex .fdMutex = none := hfree rfl
      exact .lock hp (by simp [WatchedFile.threads, hnone])
    | lockFailed => exact absurd hok (by simp [FileSucceeds])
    | seekWrite hp => exact .seekWrite hp
    | @write n hp =>
      obtain rfl : n = (text (.session i)).length := Option.some.inj hok
      simp only [WatchedFile.note, Function.update_self, written, hcut]
      exact .write hp
    | writeFailed => exact absurd hok (by simp [FileSucceeds])
    | seekRead hp => exact .seekRead hp
    | ioctl hp =>
      have hreply := hinv.replies i hline.not_seek
      rw [hp] at hreply
      exact hreply.elim
    | read hp hlt =>
      simp only [WatchedFile.note, Function.update_self]
      exact .read hp hlt
    | @readEnd ok hp hend =>
      obtain rfl : ok = true := hok
      simp only [WatchedFile.note, Function.update_self]
      exact .readEnd hp (hend rfl)
    | @unlock ok hp =>
      obtain rfl : ok = true := hok
      exact .unlock hp
  · have hloc : ∀ j, (⟨u.phase (.session j), x.note text (.session i, e) j⟩ : FileSession) =
        Function.update x.threads.loc i ⟨u.phase (.session i), x.note text (.session i, e) i⟩ j := by
      intro j
      rcases eq_or_ne j i with rfl | hj
      · rw [Function.update_self]
      · rw [Function.update_of_ne hj, hothers _ (by simpa using hj), WatchedFile.note_of_ne hj]
        rfl
    simp only [WatchedFile.threads, Threads.mk.injEq, true_and]
    exact funext hloc

/-- **A step of a timer** that writes no timestamp does nothing to the sessions. -/
lemma threads_timer {k : κ} {e : FileEvent} (hinv : FileInv text x)
    (hok : FileSucceeds text (.timer k, e)) (h : WatchedFileStep text x (.timer k, e) y) :
    y.threads = x.threads := by
  obtain ⟨u, hu, rfl⟩ := Option.map_eq_some_iff.mp h
  obtain ⟨hact, hothers⟩ := fileStep_act hu
  have hfile : u.file = x.server.file := by
    have hk := hinv.timers k
    generalize u.phase (.timer k) = p at hact
    generalize u.file = f at hact ⊢
    cases hact with
    | write => exact absurd rfl (hok _)
    | seekWrite hp | seekRead hp | ioctl hp | read hp => simp [hp, FilePhase.ofTimer] at hk
    | _ => rfl
  have hmutex : u.mutex .fdMutex = x.server.mutex .fdMutex := by
    rw [(fileStep_mutex hu).1]
    show mutexAfter x.server.mutex (.timer k) e .fdMutex = _
    cases e with
    | lock ok | unlock ok => cases ok <;> rfl
    | _ => rfl
  have hnote : x.note text (.timer k, e) = x.reply := by
    cases e with
    | write n =>
      cases n with
      | none => rfl
      | some n => exact absurd rfl (hok n)
    | _ => rfl
  simp only [WatchedFile.threads, hfile, hmutex, hnote, hothers (.session _) (by simp)]

/-- **A run of the server is one of the threads**, for clients that send lines. -/
lemma run_fileThreads (hlines : ∀ i, EchoLine (text (.session i)))
    {ks : List (FileThread ι κ × FileEvent)}
    (h : Run (guarded (fun _ => FileSucceeds text) (WatchedFileStep text)) .start ks x) :
    Run (fileProtocol fun i => text (.session i)).Step fileThreadsStart
      (ks.filterMap sessionLabel) x.threads := by
  have hboth : FileInv text x ∧ Run (fileProtocol fun i => text (.session i)).Step fileThreadsStart
      (ks.filterMap sessionLabel) x.threads := by
    refine h.invariant_labels (I := fun ks x => FileInv text x ∧
      Run (fileProtocol fun i => text (.session i)).Step fileThreadsStart
        (ks.filterMap sessionLabel) x.threads) ⟨fileInv_start, .nil⟩ ?_
    rintro ks x ⟨a, e⟩ y - ⟨hinv, hrun⟩ ⟨hok, hstep⟩
    refine ⟨hinv.step hstep, ?_⟩
    rw [List.filterMap_append]
    cases a with
    | session i => exact hrun.snoc (threads_session hinv (hlines i) hok hstep)
    | timer k =>
      rw [threads_timer hinv hok hstep]
      have hnone : [(FileThread.timer k, e)].filterMap sessionLabel = ([] : List (ι × FileEvent)) :=
        rfl
      rw [hnone, List.append_nil]
      exact hrun
  exact hboth.2

/-! ## The two builds -/

/-- The sessions in the order in which they took the mutex. -/
def fileOrder (ks : List (FileThread ι κ × FileEvent)) : List ι :=
  ks.filterMap fun k => match k with
    | (.session i, .lock true) => some i
    | _ => none

omit [DecidableEq ι] [DecidableEq κ] in
/-- It is the order of the threads. -/
lemma fileOrder_eq (ks : List (FileThread ι κ × FileEvent)) :
    fileOrder ks = order FileEvent.isLock (ks.filterMap sessionLabel) := by
  rw [order, List.filterMap_filterMap, fileOrder]
  congr 1
  funext k
  obtain ⟨a | k, e⟩ := k
  · cases e with
    | lock ok => cases ok <;> rfl
    | _ => rfl
  · rfl

/-- What the reply loop sends of what the calls of `read_until_term` return: with the flag `0` the
line is sent as a C string, and any other flag ends the loop. -/
def replyLoop : List RutCall → List Byte
  | [] => []
  | c :: calls => if c.ret.flag = 0 then cString c.piece ++ replyLoop calls else []

/-- What a session sends of the bytes it has read before it has found the end of the file. -/
def WatchedFile.sent (envs : ℕ → CallEnv) (x : WatchedFile ι κ) (i : ι) : List Byte :=
  replyLoop (readPieces newline .eof envs ((x.reply i).got.length + 1) 0 (-1) (x.reply i).got)

/-- **The reply loop sends the lines of what it reads**, if it gets its buffers.

**Proof sketch.** Induction on the calls. Each call with the flag `0` returns the next complete
piece, and the first one with another flag has found the end of the file. -/
lemma PieceCalls.replyLoop_eq {envs : ℕ → CallEnv} {bytes : List Byte} {calls : List RutCall}
    (h : PieceCalls newline .eof envs bytes calls) (hsucceed : ∀ k, (envs k).Succeeds)
    (hlen : ∀ p ∈ Pieces.split newline bytes, p.length < 2 ^ 30 - 1) :
    replyLoop calls = replyTo bytes := by
  generalize hend : ReadResult.eof = ending at h
  induction h with
  | @found body tail line calls hbody hline hok hrest ih =>
    rw [Pieces.split_append hbody] at hlen
    have hfits : Fits [body ++ [newline]] := by
      intro p hp
      rw [List.mem_singleton.mp hp]
      exact (hlen _ List.mem_cons_self).trans (by decide)
    have hreply :
        replyTo (body ++ newline :: tail) = cString (body ++ [newline]) ++ replyTo tail := by
      simpa using @replyTo_append [body ++ [newline]] (by simpa using ⟨body, rfl, hbody⟩) hfits tail
    rw [replyLoop, if_pos rfl, RutCall.piece_some, hline,
      ih fun p hp => hlen p (List.mem_cons_of_mem _ hp), hreply]
  | eof hending hbytes hne hline hok hrest ih =>
    rw [replyLoop, if_neg (by simp), replyTo_of_not_mem hbytes]
  | empty hending =>
    rw [replyLoop, if_neg (by simp), replyTo_of_not_mem List.not_mem_nil]
  | error hending => exact absurd (hend.trans hending) (by simp)
  | noMemory hflag hmemory =>
    rcases hmemory with hfail | ⟨p, hp, hlong⟩
    · exact absurd (hsucceed _) hfail
    · exact absurd (hlen p hp) (by omega)

/-- **Lines of sessions are sent as they are.** -/
lemma replyLoop_lines {envs : ℕ → CallEnv} (hsucceed : ∀ k, (envs k).Succeeds)
    {ls : List (List Byte)} (h : ∀ l ∈ ls, EchoLine l) :
    replyLoop (readPieces newline .eof envs (ls.flatten.length + 1) 0 (-1) ls.flatten) =
      ls.flatten := by
  have hcomplete : ∀ l ∈ ls, Pieces.Complete newline l := fun l hl => (h l hl).terminated.ends
  have hfits : Fits ls := fun l hl => by
    have hlen := (h l hl).terminated.length_lt
    omega
  have hpieces : Pieces.split newline ls.flatten = ls := by
    simpa [Pieces.split] using Pieces.split_flatten hcomplete []
  have hsame : ls.map cString = ls :=
    (List.map_congr_left fun l hl => (h l hl).userBuf_eq.1).trans (List.map_id ls)
  have hreply := replyTo_append hcomplete hfits []
  rw [List.append_nil, hsame, replyTo_of_not_mem List.not_mem_nil, List.append_nil] at hreply
  have hcalls : PieceCalls newline .eof envs ls.flatten
      (readPieces newline .eof envs (ls.flatten.length + 1) 0 (-1) ls.flatten) :=
    pieceCalls_readPieces (.inl rfl) (Nat.lt_succ_self _) 0 (-1)
  refine (hcalls.replyLoop_eq hsucceed ?_).trans hreply
  rw [hpieces]
  exact fun l hl => (h l hl).terminated.length_lt

/-- Lines that are not empty are more than the last ten of them, unless there are ten at most. -/
lemma rtake_flatten_eq_iff {ls : List (List Byte)} (h : ∀ l ∈ ls, l ≠ []) {k : ℕ} :
    (ls.rtake k).flatten = ls.flatten ↔ ls.length ≤ k := by
  have hsplit : ls.rdrop k ++ ls.rtake k = ls := by
    rw [List.rdrop, List.rtake, List.take_append_drop]
  constructor
  · intro heq
    have hdrop : (ls.rdrop k).flatten = [] := by
      have hflat := congrArg List.flatten hsplit
      rw [List.flatten_append, heq] at hflat
      exact List.append_left_eq_self.mp hflat
    by_contra hlong
    have hne : ls.rdrop k ≠ [] := by
      rw [List.rdrop, ← List.length_pos_iff, List.length_take]
      omega
    obtain ⟨l, hl⟩ := List.exists_mem_of_ne_nil _ hne
    have hmem : l ∈ ls := List.mem_of_mem_take hl
    exact h l hmem (List.flatten_eq_nil_iff.mp hdrop l hl)
  · intro hshort
    rw [List.rtake, Nat.sub_eq_zero_of_le hshort, List.drop_zero]

/-- **The two builds.** Take a run of each build in which everything that may fail succeeds, in the
build with the file without a timestamp, and a session that is done in both of them after the same
sessions. With the file its reply is its line after the lines of all sessions before it. With the
device its reply is the end of this one, and the same if there were fewer than ten. -/
theorem builds_agree {n : ℕ} (fsl : FixedSizeLlseek) {dev : Driver} (hdev : Initialised dev)
    {text : FileThread (Fin n) κ → List Byte} {rest : Fin n → List Byte}
    (hlines : ∀ i, EchoLine (text (.session i))) {ls : List (Fin n × Event)} {t : Server n}
    (hrun : Run (guarded Succeeds (ServerStep fsl))
      (Server.start dev fun i => text (.session i) ++ rest i) ls t)
    {ks : List (FileThread (Fin n) κ × FileEvent)} {x : WatchedFile (Fin n) κ}
    (hfile : Run (guarded (fun _ => FileSucceeds text) (WatchedFileStep text)) .start ks x)
    {envs : ℕ → CallEnv} (hsucceed : ∀ k, (envs k).Succeeds)
    {i : Fin n} {pre post post' : List (Fin n)} (horder : lockOrder ls = pre ++ i :: post)
    (horder' : fileOrder ks = pre ++ i :: post') (hdone : (t.sess i).pc = .done)
    (hdone' : x.server.phase (.session i) = .done) :
    x.sent envs i = ((pre ++ [i]).map fun j => text (.session j)).flatten ∧
      (t.sess i).sent <:+ x.sent envs i ∧
      ((t.sess i).sent = x.sent envs i ↔ pre.length < 10) := by
  set given := (pre ++ [i]).map fun j => text (.session j) with hgiven
  have hecho : ∀ l ∈ given, EchoLine l := by
    intro l hl
    obtain ⟨j, -, rfl⟩ := List.mem_map.mp hl
    exact hlines j
  have hne : ∀ l ∈ given, l ≠ [] := by
    intro l hl
    obtain ⟨c, tail, rfl⟩ := (hecho l hl).terminated.exists_cons
    exact List.cons_ne_nil _ _
  have hsent : x.sent envs i = given.flatten := by
    have hthreads := run_fileThreads hlines hfile
    have hgot : (x.reply i).got = given.flatten :=
      reply_of_fileThreads hthreads ((fileOrder_eq ks).symm.trans horder') hdone'
    rw [WatchedFile.sent, hgot]
    exact replyLoop_lines hsucceed hecho
  have hdevice : (t.sess i).sent = (given.rtake 10).flatten := by
    obtain ⟨ht, -⟩ := (serverOk_start hdev _ rest).run hlines hrun
    rw [List.nil_append] at ht
    exact ((ht.sess i).sent_eq ht.nodup horder).2 hdone
  refine ⟨hsent, ?_, ?_⟩
  · rw [hsent, hdevice]
    obtain ⟨front, hfront⟩ : given.rtake 10 <:+ given := List.drop_suffix _ _
    exact ⟨front.flatten, by rw [← List.flatten_append, hfront]⟩
  · rw [hsent, hdevice, rtake_flatten_eq_iff hne, hgiven, List.length_map, List.length_append,
      List.length_singleton]
    exact Nat.succ_le_iff

/-- A session writes a line of two bytes, reads so many bytes, and finds the end of the file. -/
def echoLabels (i : Fin 2) (bytes : ℕ) : List (FileThread (Fin 2) Unit × FileEvent) :=
  List.map (.session i, ·) ([.lock true, .lseek, .write (some 2), .lseek] ++
    List.replicate (bytes + 1) (.read true) ++ [.unlock true])

/-- The lines `"a\n"` and `"b\n"`, and a timestamp. -/
def twoTexts : FileThread (Fin 2) Unit → List Byte
  | .session i => if i.val = 0 then [97, 10] else [98, 10]
  | .timer _ => [116, 10]

/-- Two sessions, served in the same order by both builds: with the device and with the file the
second one sends both lines. -/
theorem builds_agree_two_sessions :
    ∃ t x, Run (guarded Succeeds (ServerStep fixedSizeLlseek))
        (Server.start (initialDriver 0) fun i =>
          twoTexts (.session i) ++ if i = 0 then [120] else []) (twoServed 0 1) t ∧
      Run (guarded (fun _ => FileSucceeds twoTexts) (WatchedFileStep twoTexts)) .start
        (echoLabels 0 2 ++ echoLabels 1 4) x ∧
      (t.sess 1).sent = x.sent (fun _ => ⟨some 0, fun _ => grown⟩) 1 ∧
      x.sent (fun _ => ⟨some 0, fun _ => grown⟩) 1 = [97, 10, 98, 10] := by
  have hdev : Initialised (initialDriver 0) := initialised_iff.mpr ⟨0, rfl⟩
  have hlines : ∀ i, EchoLine (twoTexts (.session i)) := by
    intro i
    simp only [twoTexts]
    split_ifs
    · exact ⟨⟨⟨[97], rfl, by decide⟩, by decide⟩, by decide, rfl⟩
    · exact ⟨⟨⟨[98], rfl, by decide⟩, by decide⟩, by decide, rfl⟩
  -- with the device
  have hfold : (((twoServed 0 1).foldlM (succeedingStep fixedSizeLlseek)
      (.start (initialDriver 0) fun i =>
        twoTexts (.session i) ++ if i = 0 then [120] else [])).map fun t =>
          (t.sess 1).pc.isDone) = some true := by
    decide +kernel
  obtain ⟨t, ht, hdone⟩ := Option.map_eq_some_iff.mp hfold
  have hrun := run_of_foldlM_succeeding ht
  -- with the file
  have hfold' : ((echoLabels 0 2 ++ echoLabels 1 4).foldlM (watchedFileStep twoTexts) .start).map
      (fun x => x.server.phase (.session 1)) = some .done := by
    decide +kernel
  obtain ⟨x, hx, hphase⟩ := Option.map_eq_some_iff.mp hfold'
  have hwatched : Run (WatchedFileStep twoTexts) .start (echoLabels 0 2 ++ echoLabels 1 4) x :=
    .of_foldlM (fun _ _ _ h => h) hx
  have hfile : Run (guarded (fun _ => FileSucceeds twoTexts) (WatchedFileStep twoTexts)) .start
      (echoLabels 0 2 ++ echoLabels 1 4) x :=
    hwatched.guard (by simp [echoLabels, FileSucceeds, twoTexts])
  have hsucceed : ∀ k : ℕ, ((fun _ => ⟨some 0, fun _ => grown⟩ : ℕ → CallEnv) k).Succeeds :=
    fun _ => ⟨rfl, fun _ => rfl⟩
  have horder : lockOrder (twoServed (0 : Fin 2) 1) = [0] ++ 1 :: [] := rfl
  have horder' : fileOrder (echoLabels 0 2 ++ echoLabels 1 4) = [0] ++ 1 :: [] := rfl
  obtain ⟨hsent, -, hsame⟩ := builds_agree fixedSizeLlseek hdev hlines hrun hfile hsucceed horder
    horder' (Pc.eq_done_of_isDone hdone) hphase
  exact ⟨t, x, hrun, hfile, hsame.mpr (by decide), hsent⟩

end Aesd
