import Mathlib.Data.List.Basic
import Mathlib.Logic.Function.Basic
import Mathlib.Tactic.SplitIfs

/-!
# Circular buffers

A circular buffer of `cap` cells stores a sequence between a read position
and a write position, both below `cap`; equal positions mean empty, so at
most `cap - 1` elements are stored.  This module gives the stored sequence as
a list, `segment`, and the effect on it of the two elementary moves: storing
at the write position and advancing it, and advancing the read position.
-/

namespace CircularBuffer

variable {α : Type*}

/-- The position after `i`. -/
def next (cap i : ℕ) : ℕ := (i + 1) % cap

/-- Number of stored elements between read position `rd` and write position
`wr`. -/
def count (cap rd wr : ℕ) : ℕ := (wr + cap - rd) % cap

/-- The stored sequence, oldest element first. -/
def segment (cap : ℕ) (buf : ℕ → α) (rd wr : ℕ) : List α :=
  (List.range (count cap rd wr)).map fun i => buf ((rd + i) % cap)

/-! ## Positions -/

theorem next_lt {cap i : ℕ} (hi : i < cap) : next cap i < cap :=
  Nat.mod_lt _ (by omega)

theorem next_eq {cap i : ℕ} (hi : i < cap) :
    next cap i = if i + 1 = cap then 0 else i + 1 := by
  unfold next
  split
  next h => rw [h, Nat.mod_self]
  next h => exact Nat.mod_eq_of_lt (by omega)

theorem next_ne {cap i : ℕ} (hcap : 1 < cap) (hi : i < cap) :
    next cap i ≠ i := by
  rw [next_eq hi]
  split <;> omega

theorem count_eq {cap rd wr : ℕ} (hrd : rd < cap) (hwr : wr < cap) :
    count cap rd wr = if rd ≤ wr then wr - rd else wr + cap - rd := by
  unfold count
  split
  next h =>
    rw [show wr + cap - rd = wr - rd + cap by omega, Nat.add_mod_right]
    exact Nat.mod_eq_of_lt (by omega)
  next h => exact Nat.mod_eq_of_lt (by omega)

theorem count_lt {cap rd wr : ℕ} (hrd : rd < cap) : count cap rd wr < cap :=
  Nat.mod_lt _ (by omega)

theorem count_next_write {cap rd wr : ℕ}
    (hrd : rd < cap) (hwr : wr < cap) (hfull : next cap wr ≠ rd) :
    count cap rd (next cap wr) = count cap rd wr + 1 := by
  rw [next_eq hwr] at hfull
  rw [count_eq hrd (next_lt hwr), count_eq hrd hwr, next_eq hwr]
  split_ifs at hfull ⊢ <;> omega

theorem count_next_read {cap rd wr : ℕ}
    (hrd : rd < cap) (hwr : wr < cap) (hne : rd ≠ wr) :
    count cap rd wr = count cap (next cap rd) wr + 1 := by
  rw [count_eq (next_lt hrd) hwr, count_eq hrd hwr, next_eq hrd]
  split_ifs <;> omega

/-- The buffer is full, that is the position after `wr` is `rd`, exactly when
it stores `cap - 1` elements. -/
theorem next_write_eq_read_iff {cap rd wr : ℕ}
    (hrd : rd < cap) (hwr : wr < cap) :
    next cap wr = rd ↔ count cap rd wr = cap - 1 := by
  rw [next_eq hwr, count_eq hrd hwr]
  split <;> split <;> omega

/-- The cell at offset `count` from the read position is the one at the write
position. -/
theorem read_add_count {cap rd wr : ℕ} (hrd : rd < cap) (hwr : wr < cap) :
    (rd + count cap rd wr) % cap = wr := by
  rw [count_eq hrd hwr]
  split
  next h =>
    rw [show rd + (wr - rd) = wr by omega]
    exact Nat.mod_eq_of_lt hwr
  next h =>
    rw [show rd + (wr + cap - rd) = wr + cap by omega, Nat.add_mod_right]
    exact Nat.mod_eq_of_lt hwr

/-- Offsets below `count` never reach the write position. -/
theorem read_add_ne_write {cap rd wr i : ℕ}
    (hrd : rd < cap) (hwr : wr < cap) (hi : i < count cap rd wr) :
    (rd + i) % cap ≠ wr := by
  rw [count_eq hrd hwr] at hi
  by_cases hwrap : rd + i < cap
  · rw [Nat.mod_eq_of_lt hwrap]
    split at hi <;> omega
  · rw [show rd + i = rd + i - cap + cap by omega, Nat.add_mod_right,
      Nat.mod_eq_of_lt (by split at hi <;> omega)]
    split at hi <;> omega

/-! ## The stored sequence -/

@[simp] theorem length_segment (cap : ℕ) (buf : ℕ → α) (rd wr : ℕ) :
    (segment cap buf rd wr).length = count cap rd wr := by
  simp [segment]

/-- A store at the write position does not touch the stored sequence. -/
theorem segment_update_write
    {cap rd wr : ℕ} (buf : ℕ → α) (x : α)
    (hrd : rd < cap) (hwr : wr < cap) :
    segment cap (Function.update buf wr x) rd wr = segment cap buf rd wr := by
  apply List.map_congr_left
  intro i hi
  rw [List.mem_range] at hi
  exact Function.update_of_ne (read_add_ne_write hrd hwr hi) _ _

/-- Advancing the write position appends the element it pointed at. -/
theorem segment_next_write
    {cap rd wr : ℕ} (buf : ℕ → α)
    (hrd : rd < cap) (hwr : wr < cap) (hfull : next cap wr ≠ rd) :
    segment cap buf rd (next cap wr) = segment cap buf rd wr ++ [buf wr] := by
  unfold segment
  rw [count_next_write hrd hwr hfull, List.range_succ, List.map_append]
  simp [read_add_count hrd hwr]

/-- Advancing the read position removes the oldest element. -/
theorem segment_next_read
    {cap rd wr : ℕ} (buf : ℕ → α)
    (hrd : rd < cap) (hwr : wr < cap) (hne : rd ≠ wr) :
    segment cap buf rd wr = buf rd :: segment cap buf (next cap rd) wr := by
  unfold segment
  rw [count_next_read hrd hwr hne, List.range_succ_eq_map, List.map_cons,
    List.map_map]
  congr 1
  · simp [Nat.mod_eq_of_lt hrd]
  · apply List.map_congr_left
    intro i _
    simp only [Function.comp_apply, next, Nat.mod_add_mod]
    rw [show rd + i.succ = rd + 1 + i by omega]

end CircularBuffer
