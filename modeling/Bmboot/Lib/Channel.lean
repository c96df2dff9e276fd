import Bmboot.Lib.StepSystem
import Mathlib.Data.List.Basic

/-!
# Bounded first-in first-out channels

The abstract purpose of a byte pipe: elements enter at the tail while there is
room and leave at the head.  The channel keeps the history of what entered
and what left, so that "nothing lost, duplicated or altered" is one equation
between lists, `run_conserves`.
-/

namespace Channel

variable {α : Type*}

/-- The queued elements, oldest first, and the two histories. -/
structure State (α : Type*) where
  queue : List α
  accepted : List α
  returned : List α

/-- One move of the producer or of the consumer. -/
inductive Move (α : Type*)
  | push (x : α)
  | pop

/-- A push is refused when `bound` elements are queued, a pop when none is. -/
def step (bound : ℕ) (s : State α) : Move α → Option (State α)
  | .push x =>
      if s.queue.length < bound then
        some { s with queue := s.queue ++ [x], accepted := s.accepted ++ [x] }
      else none
  | .pop =>
      match s.queue with
      | [] => none
      | x :: xs => some { s with queue := xs, returned := s.returned ++ [x] }

/-- What has left followed by what is queued is what was there at first
followed by what has entered. -/
def Conserves (initial : List α) (s : State α) : Prop :=
  s.returned ++ s.queue = initial ++ s.accepted

theorem step_conserves
    {bound : ℕ} {initial : List α} {s t : State α} {m : Move α}
    (hs : Conserves initial s) (hstep : step bound s m = some t) :
    Conserves initial t := by
  unfold Conserves at hs ⊢
  cases m with
  | push x =>
      simp only [step] at hstep
      split at hstep
      · cases hstep
        simp [← List.append_assoc, hs]
      · cases hstep
  | pop =>
      simp only [step] at hstep
      split at hstep
      · cases hstep
      next x xs hq =>
        cases hstep
        rw [← hs, hq]
        simp

theorem run_conserves
    {bound : ℕ} {initial : List α} {s t : State α} {ms : List (Move α)}
    (hs : Conserves initial s)
    (hrun : StepSystem.run (step bound) s ms = some t) :
    Conserves initial t :=
  StepSystem.run_preserves (fun _ _ _ => step_conserves) hs hrun

end Channel
