import Mathlib.Logic.Function.Basic

/-!
# Register banks

A bank is a family of words that hold one bit for each of many items.  The
bits of an item are reached through masks: a write-one-to-set register ors its
mask into a word, a write-one-to-clear register removes it.  This module is
independent of any particular device.

The lemmas say what a single-bit mask does to the bit at an arbitrary place,
so that a device model only has to know that distinct items have distinct
places.
-/

namespace RegisterBank

variable {ι : Type*} [DecidableEq ι] {w : Nat}

/-- The bit `k` of word `i`. -/
def bit (bank : ι → BitVec w) (i : ι) (k : Nat) : Bool :=
  (bank i).getLsbD k

/-- Write a mask to a write-one-to-set register. -/
def setMask (bank : ι → BitVec w) (i : ι) (mask : BitVec w) : ι → BitVec w :=
  Function.update bank i (bank i ||| mask)

/-- Write a mask to a write-one-to-clear register. -/
def clearMask (bank : ι → BitVec w) (i : ι) (mask : BitVec w) : ι → BitVec w :=
  Function.update bank i (bank i &&& ~~~mask)

/-- Write back only what a mask covers. -/
def keepMask (bank : ι → BitVec w) (i : ι) (mask : BitVec w) : ι → BitVec w :=
  Function.update bank i (bank i &&& mask)

/-- A single-bit mask has exactly its own bit. -/
theorem getLsbD_one_shiftLeft
    {k l : Nat} (hl : l < w) :
    (1#w <<< k).getLsbD l = decide (l = k) := by
  rw [← BitVec.twoPow_eq, BitVec.getLsbD_twoPow]
  by_cases h : l = k
  · subst h
    simp [hl]
  · simp [h, Ne.symm h]

theorem bit_setMask
    (bank : ι → BitVec w) (i j : ι) {k l : Nat} (hl : l < w) :
    bit (setMask bank i (1#w <<< k)) j l =
      (bit bank j l || decide (j = i ∧ l = k)) := by
  by_cases hj : j = i
  · subst hj
    have hword : setMask bank j (1#w <<< k) j = bank j ||| 1#w <<< k :=
      Function.update_self ..
    rw [bit, hword, BitVec.getLsbD_or, getLsbD_one_shiftLeft hl]
    simp [bit]
  · have hword : setMask bank i (1#w <<< k) j = bank j :=
      Function.update_of_ne hj _ _
    rw [bit, hword]
    simp [bit, hj]

theorem bit_clearMask
    (bank : ι → BitVec w) (i j : ι) {k l : Nat} (hl : l < w) :
    bit (clearMask bank i (1#w <<< k)) j l =
      (bit bank j l && !decide (j = i ∧ l = k)) := by
  by_cases hj : j = i
  · subst hj
    have hword : clearMask bank j (1#w <<< k) j = bank j &&& ~~~(1#w <<< k) :=
      Function.update_self ..
    rw [bit, hword, BitVec.getLsbD_and, BitVec.getLsbD_not,
      getLsbD_one_shiftLeft hl]
    simp [bit, hl]
  · have hword : clearMask bank i (1#w <<< k) j = bank j :=
      Function.update_of_ne hj _ _
    rw [bit, hword]
    simp [bit, hj]

theorem bit_keepMask
    (bank : ι → BitVec w) (i j : ι) {k l : Nat} (hl : l < w) :
    bit (keepMask bank i (1#w <<< k)) j l =
      (bit bank j l && !decide (j = i ∧ l ≠ k)) := by
  by_cases hj : j = i
  · subst hj
    have hword : keepMask bank j (1#w <<< k) j = bank j &&& 1#w <<< k :=
      Function.update_self ..
    rw [bit, hword, BitVec.getLsbD_and, getLsbD_one_shiftLeft hl]
    by_cases hk : l = k <;> simp [bit, hk]
  · have hword : keepMask bank i (1#w <<< k) j = bank j :=
      Function.update_of_ne hj _ _
    rw [bit, hword]
    simp [bit, hj]

end RegisterBank
