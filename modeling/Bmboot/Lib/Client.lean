import Mathlib.Tactic.TypeStar

/-!
# Clients of callbacks

A program that is known only by the callbacks it may call: at each point it
returns, or it asks a question and goes on in a way that may depend on the
answer.  Running it against a function that answers every question gives its
result and the list of the questions it has asked.  This module is independent
of any particular set of callbacks.
-/

/-- Programs that ask questions `q : Q`, are answered in `A q` and return a
`ρ`. -/
inductive Client (Q : Type) (A : Q → Type) (ρ : Type)
  | ret (value : ρ)
  | ask (q : Q) (next : A q → Client Q A ρ)

namespace Client

variable {Q : Type} {A : Q → Type} {ρ τ : Type}

/-- Run a client, then the one its value selects. -/
def bind : Client Q A ρ → (ρ → Client Q A τ) → Client Q A τ
  | .ret value, f => f value
  | .ask q next, f => .ask q fun a => (next a).bind f

/-- The value that a client returns. -/
def value (answer : ∀ q, A q) : Client Q A ρ → ρ
  | .ret value => value
  | .ask q next => (next (answer q)).value answer

/-- The questions that a client asks, in order. -/
def asked (answer : ∀ q, A q) : Client Q A ρ → List Q
  | .ret _ => []
  | .ask q next => q :: (next (answer q)).asked answer

theorem value_bind (answer : ∀ q, A q) (c : Client Q A ρ)
    (f : ρ → Client Q A τ) :
    (c.bind f).value answer = (f (c.value answer)).value answer := by
  induction c with
  | ret value => rfl
  | ask q next ih => exact ih (answer q)

theorem asked_bind (answer : ∀ q, A q) (c : Client Q A ρ)
    (f : ρ → Client Q A τ) :
    (c.bind f).asked answer =
      c.asked answer ++ (f (c.value answer)).asked answer := by
  induction c with
  | ret value => rfl
  | ask q next ih => exact congrArg (q :: ·) (ih (answer q))

/-- Where every answer is right exactly when its question is, all answers that a
client gets are right exactly when all its questions are. -/
theorem forall_asked_iff {Right Good : Q → Prop}
    (h : ∀ q, Right q ↔ Good q) (answer : ∀ q, A q) (c : Client Q A ρ) :
    (∀ q ∈ c.asked answer, Right q) ↔ ∀ q ∈ c.asked answer, Good q :=
  forall_congr' fun q => imp_congr_right fun _ => h q

end Client
