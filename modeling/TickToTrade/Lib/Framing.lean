import Mathlib

/-!
Streams that are made of frames. A line records each frame that was sent and the part of it that was
taken.
-/

namespace Framing
open List

structure Send (α : Type) where
  frame : List α
  taken : List α
  deriving DecidableEq

abbrev Line (α : Type) := List (Send α)

namespace Line

variable {α : Type}

def stream (line : Line α) : List α := line.flatMap Send.taken

/-- The frames of which something was taken, in order. -/
def begun (line : Line α) : List (List α) := (line.filter (!·.taken.isEmpty)).map Send.frame

/-- All begun frames are complete. -/
def Whole (line : Line α) : Prop := line.stream = line.begun.flatten

/-- All begun frames are complete but perhaps the last, and what there is of it ends the stream. -/
def Framed (line : Line α) : Prop := line.begun.dropLast.flatten <+: line.stream ∧ line.stream <+: line.begun.flatten

instance [DecidableEq α] (line : Line α) : Decidable line.Whole := inferInstanceAs (Decidable (_ = _))

instance [DecidableEq α] (line : Line α) : Decidable line.Framed := inferInstanceAs (Decidable (_ ∧ _))

variable {line : Line α} {part : List α}

theorem framed_nil : Framed ([] : Line α) := ⟨List.nil_prefix, List.nil_prefix⟩

theorem Framed.silent (framed : line.Framed) (frame : List α) : Framed (line ++ [{ frame, taken := [] }]) := by
  simpa [Framed, stream, begun] using framed

theorem Whole.framed (whole : line.Whole) : line.Framed := by
  rw [Framed, show line.stream = line.begun.flatten from whole]
  exact ⟨(List.dropLast_prefix _).flatten, prefix_rfl⟩

theorem Whole.push (whole : line.Whole) {frame : List α} (front : part <+: frame) :
    Framed (line ++ [{ frame, taken := part }]) := by
  cases part with
  | nil => exact whole.framed.silent frame
  | cons byte part =>
    have grown : begun (line ++ [{ frame, taken := byte :: part }]) = line.begun ++ [frame] := by simp [begun]
    have longer : stream (line ++ [{ frame, taken := byte :: part }]) = line.begun.flatten ++ byte :: part := by
      rw [← show line.stream = line.begun.flatten from whole]
      simp [stream]
    rw [Framed, grown, longer, dropLast_concat, flatten_append, flatten_singleton]
    exact ⟨prefix_append _ _, (prefix_append_right_inj _).mpr front⟩

end Line

end Framing
