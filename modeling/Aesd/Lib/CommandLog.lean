import Aesd.Lib.BoundedQueue

set_option relaxedAutoImplicit false
set_option autoImplicit false

/-!
# Logs of commands assembled from pieces

What a device is for that receives commands in pieces and keeps the last few of them: the bytes
of the pieces are accumulated until a piece completes a command, which is then committed. The
abstract state is the whole history of committed commands with the pending bytes; the device
shows a window over the history.

## Main definitions

* `CommandLog`, `CommandLog.append` — the state, and the arrival of one piece.
* `CommandLog.window` — the last commands.

## Main results

* `CommandLog.append_bytes` — pieces are neither lost nor duplicated nor reordered.
* `CommandLog.append_sound` — if the pieces that complete a command are those with which the
  accumulated bytes have a property, then the committed commands have it and the pending bytes
  do not.
-/

/-- A history of commands and the bytes of the command being assembled. -/
@[ext]
structure CommandLog (α : Type*) where
  committed : List (List α)
  pending : List α

namespace CommandLog

variable {α : Type*} (d : CommandLog α)

/-- No command and no pending byte. -/
def empty : CommandLog α := ⟨[], []⟩

/-- A piece arrives; `complete` tells whether it completes the command. -/
def append (piece : List α) (complete : Bool) : CommandLog α :=
  if complete then ⟨d.committed ++ [d.pending ++ piece], []⟩ else ⟨d.committed, d.pending ++ piece⟩

/-- The last `cap` commands. -/
def window (cap : ℕ) : List (List α) := d.committed.rtake cap

/-- All bytes that have arrived, in order. -/
def bytes : List α := d.committed.flatten ++ d.pending

/-- **Conservation**: a piece is appended to the bytes, whether or not it completes a
command. -/
lemma append_bytes (piece : List α) (complete : Bool) :
    (d.append piece complete).bytes = d.bytes ++ piece := by
  cases complete <;> simp [append, bytes]

/-- The property that decides completeness holds of all commands and not of what is pending. -/
def Sound (P : List α → Prop) : Prop := (∀ c ∈ d.committed, P c) ∧ ¬P d.pending

/-- Completeness decided by a property of the accumulated bytes keeps the log sound for it. -/
lemma append_sound {P : List α → Prop} {d : CommandLog α} (h : d.Sound P) (h0 : ¬P [])
    (piece : List α) {complete : Bool} (hc : complete = true ↔ P (d.pending ++ piece)) :
    (d.append piece complete).Sound P := by
  cases complete with
  | false => exact ⟨h.1, fun hp => by simpa using hc.mpr hp⟩
  | true =>
    refine ⟨fun c hcm => ?_, h0⟩
    rcases List.mem_append.mp hcm with hcm | hcm
    · exact h.1 c hcm
    · rw [List.mem_singleton.mp hcm]
      exact hc.mp rfl

end CommandLog
