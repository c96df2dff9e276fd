import Mathlib.Data.Nat.Notation
import Mathlib.Logic.Function.Iterate

/-!
# Cyclic redundancy checks

The remainder of a byte string modulo a polynomial over the field of two
elements, with the lowest bit first: one bit at a time, and one byte at a time
with a table.  This module is independent of any particular polynomial and
table.
-/

namespace Crc

variable {w : ℕ} (poly : BitVec w)

/-! ## One bit at a time -/

/-- What is subtracted when a bit is shifted out. -/
def subtrahend (bit : Bool) : BitVec w :=
  if bit then poly else 0

/-- Shift out the lowest bit. -/
def shiftOut (r : BitVec w) : BitVec w :=
  r >>> 1 ^^^ subtrahend poly (r.getLsbD 0)

/-- Take in a byte: eight bits, the lowest one first. -/
def takeIn (r : BitVec w) (byte : UInt8) : BitVec w :=
  (shiftOut poly)^[8] (r ^^^ byte.toBitVec.zeroExtend w)

def remainder (r : BitVec w) (bytes : List UInt8) : BitVec w :=
  bytes.foldl (takeIn poly) r

/-- CRC-32: the remainder starts with all bits set and is inverted at the end. -/
def crc32 (bytes : List UInt8) : BitVec 32 :=
  remainder 0xedb88320 (BitVec.allOnes 32) bytes ^^^ BitVec.allOnes 32

/-! ## One byte at a time -/

theorem subtrahend_xor (x y : Bool) :
    subtrahend poly (x ^^ y) = subtrahend poly x ^^^ subtrahend poly y := by
  cases x with
  | false => simp [subtrahend]
  | true =>
      cases y with
      | false => simp [subtrahend]
      | true => simp [subtrahend]

theorem shiftOut_xor (a b : BitVec w) :
    shiftOut poly (a ^^^ b) = shiftOut poly a ^^^ shiftOut poly b := by
  rw [shiftOut, BitVec.getLsbD_xor, subtrahend_xor,
    BitVec.ushiftRight_xor_distrib, shiftOut, shiftOut]
  ac_rfl

theorem iterate_shiftOut_xor (n : ℕ) (a b : BitVec w) :
    (shiftOut poly)^[n] (a ^^^ b) =
      (shiftOut poly)^[n] a ^^^ (shiftOut poly)^[n] b := by
  induction n generalizing a b with
  | zero => rfl
  | succ n ih =>
      rw [Function.iterate_succ_apply, shiftOut_xor, ih]
      rfl

/-- Bits that are not set are only shifted out. -/
theorem iterate_shiftOut_of_low
    {n : ℕ} {r : BitVec w} (h : ∀ i < n, r.getLsbD i = false) :
    (shiftOut poly)^[n] r = r >>> n := by
  induction n generalizing r with
  | zero => rfl
  | succ n ih =>
      have hlowest : r.getLsbD 0 = false := h 0 (Nat.succ_pos n)
      have hstep : shiftOut poly r = r >>> 1 := by
        rw [shiftOut, hlowest]
        exact BitVec.xor_zero
      have hrest : ∀ i < n, (r >>> 1).getLsbD i = false := by
        intro i hi
        rw [BitVec.getLsbD_ushiftRight]
        exact h (1 + i) (by omega)
      rw [Function.iterate_succ_apply, hstep, ih hrest, ← BitVec.shiftRight_add,
        Nat.add_comm]

/-- The lowest eight bits. -/
def lowOctet (r : BitVec w) : BitVec w := r &&& BitVec.ofNat w 255

theorem getLsbD_lowOctet (r : BitVec w) (i : ℕ) :
    (lowOctet r).getLsbD i = (r.getLsbD i && decide (i < 8)) := by
  have h255 : (255 : ℕ) = 2 ^ 8 - 1 := rfl
  rw [lowOctet, BitVec.getLsbD_and, BitVec.getLsbD_ofNat, h255,
    Nat.testBit_two_pow_sub_one]
  by_cases hi : i < w
  · simp [hi]
  · simp [BitVec.getLsbD_of_ge r i (by omega)]

theorem toNat_lowOctet_lt (r : BitVec w) : (lowOctet r).toNat < 256 := by
  have hle := Nat.and_le_right (n := r.toNat) (m := 255 % 2 ^ w)
  have hmod := Nat.mod_le 255 (2 ^ w)
  rw [lowOctet, BitVec.toNat_and, BitVec.toNat_ofNat]
  omega

/-- Eight bits leave what they leave of the lowest octet, and the others shifted
down. -/
theorem iterate_shiftOut_eight (r : BitVec w) :
    (shiftOut poly)^[8] r = (shiftOut poly)^[8] (lowOctet r) ^^^ r >>> 8 := by
  have hsplit : r = lowOctet r ^^^ (r ^^^ lowOctet r) := by
    rw [BitVec.xor_comm r, ← BitVec.xor_assoc, BitVec.xor_self,
      BitVec.zero_xor]
  have hlow : ∀ i < 8, (r ^^^ lowOctet r).getLsbD i = false := by
    intro i hi
    simp [BitVec.getLsbD_xor, getLsbD_lowOctet, hi]
  have hhigh : (r ^^^ lowOctet r) >>> 8 = r >>> 8 := by
    apply BitVec.eq_of_getLsbD_eq
    intro i _
    have hi : ¬8 + i < 8 := by omega
    simp [BitVec.getLsbD_ushiftRight, BitVec.getLsbD_xor, getLsbD_lowOctet, hi]
  have hxor := iterate_shiftOut_xor poly 8 (lowOctet r) (r ^^^ lowOctet r)
  rw [← hsplit, iterate_shiftOut_of_low poly hlow, hhigh] at hxor
  exact hxor

/-- A table of what eight bits leave of each octet takes in a byte at a time. -/
theorem takeIn_eq_table {table : ℕ → BitVec w}
    (htable : ∀ i < 256, table i = (shiftOut poly)^[8] (BitVec.ofNat w i))
    (r : BitVec w) (byte : UInt8) :
    takeIn poly r byte =
      table (lowOctet (r ^^^ byte.toBitVec.zeroExtend w)).toNat ^^^ r >>> 8 := by
  have hbyte : (byte.toBitVec.zeroExtend w) >>> 8 = 0 := by
    apply BitVec.eq_of_getLsbD_eq
    intro i _
    simp
  rw [takeIn, iterate_shiftOut_eight, htable _ (toNat_lowOctet_lt _),
    BitVec.ofNat_toNat, BitVec.setWidth_eq, BitVec.ushiftRight_xor_distrib,
    hbyte]
  simp

/-! ## Errors in a few consecutive bytes -/

/-- No bit pattern vanishes when a bit is shifted out, if the polynomial has its
highest bit set. -/
theorem eq_zero_of_shiftOut_eq_zero
    (hpoly : poly.msb = true) {d : BitVec w} (h : shiftOut poly d = 0) :
    d = 0 := by
  have hshift : d >>> 1 = subtrahend poly (d.getLsbD 0) := by
    apply BitVec.xor_right_inj (subtrahend poly (d.getLsbD 0)) |>.mp
    rw [BitVec.xor_self, BitVec.xor_comm]
    exact h
  cases hlowest : d.getLsbD 0 with
  | true =>
      have hmsb : (d >>> 1).msb = true := by
        rw [hshift, hlowest]
        exact hpoly
      simp [BitVec.msb_ushiftRight] at hmsb
  | false =>
      rw [hlowest] at hshift
      apply BitVec.eq_of_getLsbD_eq
      intro i _
      cases i with
      | zero => simp [hlowest]
      | succ i =>
          have hbit := congrArg (fun x => x.getLsbD i) hshift
          simpa [subtrahend, BitVec.getLsbD_ushiftRight, Nat.add_comm 1] using hbit

theorem shiftOut_injective (hpoly : poly.msb = true) :
    Function.Injective (shiftOut poly) := by
  intro a b h
  apply BitVec.xor_eq_zero_iff.mp
  apply eq_zero_of_shiftOut_eq_zero poly hpoly
  rw [shiftOut_xor, h]
  exact BitVec.xor_self

theorem takeIn_injective (hpoly : poly.msb = true) (byte : UInt8) :
    Function.Injective fun r => takeIn poly r byte := by
  intro a b h
  have hxor := (shiftOut_injective poly hpoly).iterate 8 h
  exact (BitVec.xor_left_inj _).mp hxor

/-- The same bytes leave different remainders different. -/
theorem remainder_injective (hpoly : poly.msb = true) (bytes : List UInt8) :
    Function.Injective fun r => remainder poly r bytes := by
  induction bytes with
  | nil => exact Function.injective_id
  | cons byte bytes ih =>
      intro a b h
      exact takeIn_injective poly hpoly byte (ih h)

theorem remainder_append (r : BitVec w) (bytes rest : List UInt8) :
    remainder poly r (bytes ++ rest) =
      remainder poly (remainder poly r bytes) rest :=
  List.foldl_append

/-- A few bytes as one word, the first byte lowest. -/
def packed : List UInt8 → BitVec w
  | [] => 0
  | byte :: bytes => byte.toBitVec.zeroExtend w ^^^ packed bytes <<< 8

theorem getLsbD_packed_of_le
    {bytes : List UInt8} {i : ℕ} (h : 8 * bytes.length ≤ i) :
    (packed bytes : BitVec w).getLsbD i = false := by
  induction bytes generalizing i with
  | nil => simp [packed]
  | cons byte bytes ih =>
      rw [List.length_cons] at h
      have hbyte : byte.toBitVec.getLsbD i = false :=
        BitVec.getLsbD_of_ge _ _ (by omega)
      have hrest := ih (i := i - 8) (by omega)
      simp [packed, hbyte, hrest]

theorem packed_shift
    {bytes : List UInt8} (h : 8 * (bytes.length + 1) ≤ w) :
    (packed bytes : BitVec w) <<< 8 >>> 8 = packed bytes := by
  apply BitVec.eq_of_getLsbD_eq
  intro i hi
  by_cases hfit : 8 + i < w
  · have hnot : ¬8 + i < 8 := by omega
    simp [hi, hfit, hnot]
  · have hhigh : (packed bytes : BitVec w).getLsbD i = false :=
      getLsbD_packed_of_le (by omega)
    simp [BitVec.getLsbD_ushiftRight, hfit, hhigh]

/-- Bytes that fit into the register are shifted out together. -/
theorem remainder_eq_iterate
    {bytes : List UInt8} (h : 8 * bytes.length ≤ w) (r : BitVec w) :
    remainder poly r bytes =
      (shiftOut poly)^[8 * bytes.length] (r ^^^ packed bytes) := by
  induction bytes generalizing r with
  | nil => simp [remainder, packed]
  | cons byte bytes ih =>
      have hlow : ∀ i < 8, ((packed bytes : BitVec w) <<< 8).getLsbD i = false := by
        intro i hi
        simp [hi]
      have hrest : (shiftOut poly)^[8] (packed bytes <<< 8) = packed bytes := by
        rw [iterate_shiftOut_of_low poly hlow, packed_shift h]
      have htake : takeIn poly r byte ^^^ packed bytes =
          (shiftOut poly)^[8] (r ^^^ packed (byte :: bytes)) := by
        rw [packed, ← BitVec.xor_assoc, iterate_shiftOut_xor, hrest]
        rfl
      have hstep : remainder poly r (byte :: bytes) =
          remainder poly (takeIn poly r byte) bytes := rfl
      rw [List.length_cons] at h
      rw [hstep, ih (by omega), htake, ← Function.iterate_add_apply,
        List.length_cons, Nat.mul_succ]

theorem packed_injective
    {bytes bytes' : List UInt8} (hlength : bytes.length = bytes'.length)
    (hfit : 8 * bytes.length ≤ w)
    (h : (packed bytes : BitVec w) = packed bytes') : bytes = bytes' := by
  induction bytes generalizing bytes' with
  | nil => exact (List.length_eq_zero_iff.mp hlength.symm).symm
  | cons byte bytes ih =>
      obtain ⟨byte', bytes', rfl⟩ :=
        List.exists_cons_of_length_eq_add_one hlength.symm
      have hbyte : byte = byte' := by
        apply UInt8.toBitVec_inj.mp
        apply BitVec.eq_of_getLsbD_eq
        intro i hi
        rw [List.length_cons] at hfit
        have hbit := congrArg (fun x => x.getLsbD i) h
        have hw : i < w := by omega
        simpa [packed, hi, hw] using hbit
      subst hbyte
      have hshifted := (BitVec.xor_right_inj _).mp h
      have hrest : (packed bytes : BitVec w) = packed bytes' := by
        have hfit' : 8 * (bytes'.length + 1) ≤ w := by
          rw [← List.length_cons, ← hlength]
          exact hfit
        rw [← packed_shift hfit, hshifted, packed_shift hfit']
      rw [List.length_cons, List.length_cons] at hlength
      rw [List.length_cons] at hfit
      rw [ih (Nat.succ.inj hlength) (by omega) hrest]

/-- A change within bytes that fit into the register changes the remainder,
wherever it is. -/
theorem remainder_ne_of_window
    (hpoly : poly.msb = true) (r : BitVec w)
    (before after : List UInt8) {bytes bytes' : List UInt8}
    (hlength : bytes.length = bytes'.length) (hfit : 8 * bytes.length ≤ w)
    (hne : bytes ≠ bytes') :
    remainder poly r (before ++ bytes ++ after) ≠
      remainder poly r (before ++ bytes' ++ after) := by
  intro h
  rw [remainder_append, remainder_append, remainder_append,
    remainder_append] at h
  have hfit' : 8 * bytes'.length ≤ w := by
    rw [← hlength]
    exact hfit
  have hwindow := remainder_injective poly hpoly after h
  generalize remainder poly r before = start at hwindow
  change remainder poly start bytes = remainder poly start bytes' at hwindow
  rw [remainder_eq_iterate poly hfit, remainder_eq_iterate poly hfit',
    ← hlength] at hwindow
  have hpacked := (shiftOut_injective poly hpoly).iterate _ hwindow
  exact hne (packed_injective hlength hfit ((BitVec.xor_right_inj _).mp hpacked))

/-- The same for two byte strings that agree before the window and after it. -/
theorem remainder_ne_of_agree
    (hpoly : poly.msb = true) (r : BitVec w)
    {bytes bytes' : List UInt8} (hlength : bytes.length = bytes'.length)
    {first size : ℕ} (hfit : 8 * size ≤ w)
    (hbefore : bytes.take first = bytes'.take first)
    (hafter : bytes.drop (first + size) = bytes'.drop (first + size))
    (hne : bytes ≠ bytes') :
    remainder poly r bytes ≠ remainder poly r bytes' := by
  have hsplit : ∀ l : List UInt8, l.take first ++ (l.drop first).take size ++
      l.drop (first + size) = l := by
    intro l
    rw [← List.drop_drop, List.append_assoc, List.take_append_drop,
      List.take_append_drop]
  have hwindow : (bytes.drop first).take size ≠
      (bytes'.drop first).take size := by
    intro h
    apply hne
    rw [← hsplit bytes, ← hsplit bytes', hbefore, h, hafter]
  have hcount : ((bytes.drop first).take size).length =
      ((bytes'.drop first).take size).length := by
    simp [hlength]
  have hshort : 8 * ((bytes.drop first).take size).length ≤ w := by
    have hle := List.length_take_le size (bytes.drop first)
    omega
  have h := remainder_ne_of_window poly hpoly r (bytes.take first)
    (bytes.drop (first + size)) hcount hshort hwindow
  rw [hsplit, hbefore, hafter, hsplit] at h
  exact h

end Crc
