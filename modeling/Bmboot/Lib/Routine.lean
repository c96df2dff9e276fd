import Mathlib.Tactic.TypeStar

/-!
# Routines cut into steps

A routine that other parties may interrupt is a step function over program
points: one step changes the state and either goes to another point or returns
a value.  `Completes` is its meaning when nobody interferes, and a prediction
is a function that says at every point what the rest of the routine will do.
This module is independent of any particular routine.
-/

namespace Routine

/-- Where a step leads. -/
inductive Next (π ρ : Type*)
  | goto (pc : π)
  | ret (value : ρ)

variable {σ π ρ : Type*} {step : σ → π → σ × Next π ρ}

/-- Run without interference from state `s` and point `p`, the routine returns
`r` in state `t`. -/
inductive Completes (step : σ → π → σ × Next π ρ) : σ → π → σ → ρ → Prop
  | ret {s t : σ} {p : π} {r : ρ} (h : step s p = (t, .ret r)) :
      Completes step s p t r
  | goto {s u t : σ} {p q : π} {r : ρ} (h : step s p = (u, .goto q))
      (hrest : Completes step u q t r) : Completes step s p t r

/-- A routine has one result. -/
theorem Completes.unique
    {s t t' : σ} {p : π} {r r' : ρ} (h : Completes step s p t r)
    (h' : Completes step s p t' r') : t = t' ∧ r = r' := by
  induction h with
  | ret hstep =>
      cases h' with
      | ret hstep' =>
          rw [hstep] at hstep'
          cases hstep'
          exact ⟨rfl, rfl⟩
      | goto hstep' =>
          rw [hstep] at hstep'
          cases hstep'
  | goto hstep _ ih =>
      cases h' with
      | ret hstep' =>
          rw [hstep] at hstep'
          cases hstep'
      | goto hstep' hrest' =>
          rw [hstep] at hstep'
          cases hstep'
          exact ih hrest'

/-- One step does not change what `f` says about the rest of the routine. -/
def Predicts (step : σ → π → σ × Next π ρ) (f : σ → π → σ × ρ) : Prop :=
  ∀ s p,
    (∀ t q, step s p = (t, .goto q) → f s p = f t q) ∧
      ∀ t r, step s p = (t, .ret r) → f s p = (t, r)

/-- A routine with a decreasing measure ends, and a prediction says how. -/
theorem Predicts.completes
    {f : σ → π → σ × ρ} (hf : Predicts step f)
    (measure : σ → π → Nat)
    (hmeasure : ∀ s p t q, step s p = (t, .goto q) → measure t q < measure s p)
    (s : σ) (p : π) :
    Completes step s p (f s p).1 (f s p).2 := by
  induction hn : measure s p using Nat.strongRecOn generalizing s p with
  | ind n ih =>
      obtain ⟨hgoto, hret⟩ := hf s p
      match h : step s p with
      | (t, .goto q) =>
          have hlt := hmeasure s p t q h
          rw [hgoto t q h]
          exact .goto h (ih _ (hn ▸ hlt) t q rfl)
      | (t, .ret r) =>
          rw [hret t r h]
          exact .ret h

end Routine
