import Mathlib.Algebra.Order.Ring.Nat
import Mathlib.Data.List.Basic
import Mathlib.Data.List.GetD

/-!
# Byte memories

Byte strings stored in a memory whose addresses wrap around.  A byte string may
be as long as the memory.  This module is independent of what is stored.
-/

namespace ByteMemory

/-- A memory with addresses of `w` bits. -/
abbrev Memory (w : ℕ) := BitVec w → UInt8

variable {w : ℕ}

/-- The bytes `[a, a + n)`. -/
def read (m : Memory w) (a : BitVec w) (n : ℕ) : List UInt8 :=
  (List.range n).map fun i => m (a + BitVec.ofNat w i)

/-- Store a byte string at `a`. -/
def write (m : Memory w) (a : BitVec w) (bytes : List UInt8) : Memory w :=
  fun x => bytes.getD (x - a).toNat (m x)

/-! ## Offsets -/

theorem toNat_add_sub {i : ℕ} (a : BitVec w) (h : i < 2 ^ w) :
    (a + BitVec.ofNat w i - a).toNat = i := by
  rw [BitVec.add_comm, BitVec.add_sub_cancel, BitVec.toNat_ofNat,
    Nat.mod_eq_of_lt h]

theorem add_ofNat_add (a : BitVec w) (n k : ℕ) :
    a + BitVec.ofNat w n + BitVec.ofNat w k = a + BitVec.ofNat w (n + k) := by
  rw [BitVec.add_assoc, ← BitVec.ofNat_add]

theorem sub_ofNat_sub (a : BitVec w) (n k : ℕ) :
    a - BitVec.ofNat w n - BitVec.ofNat w k = a - BitVec.ofNat w (n + k) := by
  rw [BitVec.sub_sub, ← BitVec.ofNat_add]

/-- An address above the stack pointer that is reached from below. -/
theorem sub_ofNat_add (a : BitVec w) (n k : ℕ) :
    a - BitVec.ofNat w (n + k) + BitVec.ofNat w k = a - BitVec.ofNat w n := by
  rw [← sub_ofNat_sub, BitVec.sub_add_cancel]

/-- The offset of an address from a later one. -/
theorem toNat_sub_add {n : ℕ} (a x : BitVec w) (h : n ≤ 2 ^ w) :
    (x - (a + BitVec.ofNat w n)).toNat =
      if n ≤ (x - a).toNat then (x - a).toNat - n
      else (x - a).toNat + (2 ^ w - n) := by
  have hlt := (x - a).isLt
  rw [← BitVec.sub_sub, BitVec.toNat_sub, BitVec.toNat_ofNat]
  rcases Nat.lt_or_eq_of_le h with hn | rfl
  · rw [Nat.mod_eq_of_lt hn]
    split
    next hle =>
      have hsum : 2 ^ w - n + (x - a).toNat = (x - a).toNat - n + 2 ^ w := by
        omega
      rw [hsum, Nat.add_mod_right]
      exact Nat.mod_eq_of_lt (by omega)
    next hgt =>
      rw [Nat.add_comm]
      exact Nat.mod_eq_of_lt (by omega)
  · rw [if_neg (Nat.not_le_of_lt hlt), Nat.mod_self, Nat.sub_zero,
      Nat.add_mod_left, Nat.sub_self, Nat.add_zero]
    exact Nat.mod_eq_of_lt hlt

/-! ## Writing and reading -/

variable {m m' : Memory w} {a x : BitVec w} {bytes : List UInt8}

@[simp] theorem length_read (m : Memory w) (a : BitVec w) (n : ℕ) :
    (read m a n).length = n := by
  simp [read]

theorem getElem_read {n i : ℕ} (h : i < (read m a n).length) :
    (read m a n)[i] = m (a + BitVec.ofNat w i) := by
  simp [read]

/-- Bytes behind the byte string are left alone. -/
theorem write_of_le (h : bytes.length ≤ (x - a).toNat) :
    write m a bytes x = m x :=
  List.getD_eq_default _ _ h

theorem write_nil (m : Memory w) (a : BitVec w) : write m a [] = m := by
  funext x
  exact write_of_le (Nat.zero_le _)

theorem read_write (m : Memory w) (a : BitVec w) (h : bytes.length ≤ 2 ^ w) :
    read (write m a bytes) a bytes.length = bytes := by
  apply List.ext_getElem
  · exact length_read _ _ _
  · intro i _ hi
    rw [getElem_read, write, toNat_add_sub a (Nat.lt_of_lt_of_le hi h)]
    exact List.getD_eq_getElem _ _ hi

theorem read_congr {n : ℕ}
    (h : ∀ i < n, m (a + BitVec.ofNat w i) = m' (a + BitVec.ofNat w i)) :
    read m a n = read m' a n := by
  apply List.map_congr_left
  intro i hi
  exact h i (List.mem_range.mp hi)

theorem read_add (m : Memory w) (a : BitVec w) (n k : ℕ) :
    read m a (n + k) = read m a n ++ read m (a + BitVec.ofNat w n) k := by
  rw [read, List.range_add, List.map_append, List.map_map]
  congr 1
  apply List.map_congr_left
  intro i _
  rw [Function.comp_apply, add_ofNat_add]

/-- A byte string stored elsewhere is not read. -/
theorem read_write_of_le {b : BitVec w} {n : ℕ}
    (h : ∀ i < n, bytes.length ≤ (b + BitVec.ofNat w i - a).toNat) :
    read (write m a bytes) b n = read m b n :=
  read_congr fun i hi => write_of_le (h i hi)

/-- A range in equal parts. -/
theorem read_mul (m : Memory w) (a : BitVec w) (size n : ℕ) :
    read m a (size * n) = (List.range n).flatMap fun i =>
      read m (a + BitVec.ofNat w (size * i)) size := by
  induction n with
  | zero => simp [read]
  | succ n ih =>
      rw [Nat.mul_succ, read_add, ih, List.range_succ, List.flatMap_append,
        List.flatMap_singleton]

/-- Two byte strings stored one behind the other, the first one first. -/
theorem write_write_append
    (m : Memory w) (a : BitVec w) (bytes bytes' : List UInt8)
    (h : bytes.length + bytes'.length ≤ 2 ^ w) :
    write (write m a bytes) (a + BitVec.ofNat w bytes.length) bytes' =
      write m a (bytes ++ bytes') := by
  funext x
  have hlt := (x - a).isLt
  rw [write, toNat_sub_add a x (Nat.le_of_add_right_le h), write, write]
  split
  next hle => rw [List.getD_append_right _ _ _ _ hle,
    List.getD_eq_default bytes _ hle]
  next hgt =>
    rw [Nat.not_le] at hgt
    rw [List.getD_append _ _ _ _ hgt]
    exact List.getD_eq_default _ _ (by omega)

/-- The same, the second one first. -/
theorem write_write_prepend
    (m : Memory w) (a : BitVec w) (bytes bytes' : List UInt8)
    (h : bytes.length + bytes'.length ≤ 2 ^ w) :
    write (write m (a + BitVec.ofNat w bytes.length) bytes') a bytes =
      write m a (bytes ++ bytes') := by
  funext x
  have hlt := (x - a).isLt
  rw [write, write, toNat_sub_add a x (Nat.le_of_add_right_le h), write]
  split
  next hle => rw [List.getD_append_right _ _ _ _ hle,
    List.getD_eq_default bytes _ hle]
  next hgt =>
    rw [Nat.not_le] at hgt
    rw [List.getD_append _ _ _ _ hgt, List.getD_eq_getElem _ _ hgt,
      List.getD_eq_getElem _ _ hgt]

/-! ## Clearing -/

/-- Zeros in `[a, a + n)`. -/
def clear (m : Memory w) (a : BitVec w) (n : ℕ) : Memory w :=
  fun x => if (x - a).toNat < n then 0 else m x

theorem clear_zero (m : Memory w) (a : BitVec w) : clear m a 0 = m := rfl

theorem write_replicate_zero (m : Memory w) (a : BitVec w) (n : ℕ) :
    write m a (List.replicate n 0) = clear m a n := by
  funext x
  rw [write, clear]
  split
  next hlt =>
    rw [List.getD_eq_getElem _ _ (by rwa [List.length_replicate]),
      List.getElem_replicate]
  next hge =>
    exact List.getD_eq_default _ _ (by rw [List.length_replicate]; omega)

/-- Two areas one behind the other. -/
theorem clear_clear (m : Memory w) (a : BitVec w) {n k : ℕ} (h : n + k ≤ 2 ^ w) :
    clear (clear m a n) (a + BitVec.ofNat w n) k = clear m a (n + k) := by
  funext x
  have hlt := (x - a).isLt
  simp only [clear]
  rw [toNat_sub_add a x (Nat.le_of_add_right_le h)]
  split_ifs <;> first | rfl | omega

end ByteMemory
