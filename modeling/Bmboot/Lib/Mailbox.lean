import Mathlib.Data.BitVec
import Mathlib.Tactic.TypeStar

/-!
# Mailboxes

A mailbox passes requests one at a time: the next one is issued only when the
last one has been answered.  The two sides may keep its two lengths as
counters of a fixed width; because the lengths never differ by more than one,
the counters tell them apart across any number of wraps.  This module is
independent of any particular protocol.
-/

namespace Mailbox

variable {α β : Type*}

structure State (α β : Type*) where
  requests : List α
  answers : List β

inductive Move (α β : Type*)
  | issue (request : α)
  | answer (answer : β)

/-- Every request has been answered. -/
def State.Settled (s : State α β) : Prop :=
  s.requests.length = s.answers.length

/-- The latest request has not been answered. -/
def State.Pending (s : State α β) : Prop :=
  s.requests.length = s.answers.length + 1

instance (s : State α β) : Decidable s.Settled :=
  inferInstanceAs (Decidable (_ = _))

instance (s : State α β) : Decidable s.Pending :=
  inferInstanceAs (Decidable (_ = _))

def step (s : State α β) : Move α β → Option (State α β)
  | .issue a =>
      if s.Settled then some { s with requests := s.requests ++ [a] } else none
  | .answer b =>
      if s.Pending then some { s with answers := s.answers ++ [b] } else none

/-- No request is issued over an unanswered one, and no answer comes without a
request. -/
def State.Alternates (s : State α β) : Prop := s.Settled ∨ s.Pending

variable {s t : State α β}

theorem State.Settled.not_pending (h : s.Settled) : ¬s.Pending := by
  intro hpending
  have hlen : s.requests.length = s.answers.length := h
  have hlen' : s.requests.length = s.answers.length + 1 := hpending
  omega

theorem State.Alternates.answers_le (h : s.Alternates) :
    s.answers.length ≤ s.requests.length := by
  rcases h with hsettled | hpending
  · exact Nat.le_of_eq (Eq.symm hsettled)
  · have hlen : s.requests.length = s.answers.length + 1 := hpending
    omega

theorem settled_answer (b : β) (h : s.Pending) :
    State.Settled { s with answers := s.answers ++ [b] } := by
  have hlen : s.requests.length = s.answers.length + 1 := h
  simp [State.Settled, hlen]

theorem pending_issue (a : α) (h : s.Settled) :
    State.Pending { s with requests := s.requests ++ [a] } := by
  have hlen : s.requests.length = s.answers.length := h
  simp [State.Pending, hlen]

/-! ## Counters -/

variable {w : Nat} {seq ack : BitVec w}

/-- The counters of a mailbox. -/
structure Counts (seq ack : BitVec w) (s : State α β) : Prop where
  seq_eq : seq = BitVec.ofNat w s.requests.length
  ack_eq : ack = BitVec.ofNat w s.answers.length

theorem ofNat_succ_ne (hw : 0 < w) (n : Nat) :
    BitVec.ofNat w (n + 1) ≠ BitVec.ofNat w n := by
  intro h
  have hone : (1#w) = 0#w := by
    have hadd : BitVec.ofNat w n + 1#w = BitVec.ofNat w n + 0#w := by
      rw [BitVec.add_zero, ← BitVec.ofNat_add, h]
    exact (BitVec.add_right_inj _).mp hadd
  have hbit := congrArg (fun x : BitVec w => x.getLsbD 0) hone
  simp [hw] at hbit

/-- The counters are equal exactly when every request has been answered. -/
theorem Counts.eq_iff_settled
    (h : Counts seq ack s) (hw : 0 < w) (halternates : s.Alternates) :
    seq = ack ↔ s.Settled := by
  constructor
  · intro heq
    rcases halternates with hsettled | hpending
    · exact hsettled
    · have hlen : s.requests.length = s.answers.length + 1 := hpending
      rw [h.seq_eq, h.ack_eq, hlen] at heq
      exact absurd heq (ofNat_succ_ne hw _)
  · intro hsettled
    have hlen : s.requests.length = s.answers.length := hsettled
    rw [h.seq_eq, h.ack_eq, hlen]

/-- The difference of the counters is zero or one. -/
theorem Counts.sub_eq
    (h : Counts seq ack s) (halternates : s.Alternates) :
    seq - ack = 0 ∨ seq - ack = 1 := by
  rcases halternates with hsettled | hpending
  · have hlen : s.requests.length = s.answers.length := hsettled
    left
    rw [h.seq_eq, h.ack_eq, hlen, BitVec.sub_self]
    rfl
  · have hlen : s.requests.length = s.answers.length + 1 := hpending
    right
    rw [h.seq_eq, h.ack_eq, hlen, BitVec.ofNat_add, BitVec.add_comm,
      BitVec.add_sub_cancel]
    rfl

/-- While a request is pending, its counter is one ahead. -/
theorem Counts.seq_eq_succ (h : Counts seq ack s) (hpending : s.Pending) :
    seq = ack + 1 := by
  have hlen : s.requests.length = s.answers.length + 1 := hpending
  rw [h.seq_eq, h.ack_eq, hlen, BitVec.ofNat_add]
  rfl

theorem Counts.issue (h : Counts seq ack s) (a : α) :
    Counts (seq + 1) ack { s with requests := s.requests ++ [a] } where
  seq_eq := by
    rw [h.seq_eq, List.length_append, List.length_singleton, BitVec.ofNat_add]
    rfl
  ack_eq := h.ack_eq

theorem Counts.answer (h : Counts seq ack s) (b : β) :
    Counts seq (ack + 1) { s with answers := s.answers ++ [b] } where
  seq_eq := h.seq_eq
  ack_eq := by
    rw [h.ack_eq, List.length_append, List.length_singleton, BitVec.ofNat_add]
    rfl

end Mailbox
