import Mathlib.Data.Nat.Size
import Mathlib.Tactic.Ring

/-!
# Cache maintenance by set and way

The operand of a maintenance instruction names a cache level, a set and a way
in one word.  Where the fields of set and way lie depends on the geometry of
the cache, as its size register gives it.  This module is independent of any
particular cache.

The main lemma is about operands built with the set at any shift up to the
right one: too small a shift drops low bits of the set.
-/

namespace SetWay

/-- A cache by the fields of its size register: the logarithm of the bytes of
a line less four, the ways less one, and the sets less one. -/
structure Geometry where
  lineSize : ℕ
  associativity : ℕ
  numSets : ℕ
  deriving DecidableEq, Repr

variable {g : Geometry}

/-- The bits of an address within a line. -/
def Geometry.lineBits (g : Geometry) : ℕ := g.lineSize + 4

/-- The bits that number the sets. -/
def Geometry.setBits (g : Geometry) : ℕ := Nat.size g.numSets

/-- The bits that number the ways. -/
def Geometry.wayBits (g : Geometry) : ℕ := Nat.size g.associativity

/-- The fields of the operand do not overlap. -/
def Geometry.Fits (g : Geometry) : Prop :=
  g.lineBits + g.setBits + g.wayBits ≤ 32

instance (g : Geometry) : Decidable g.Fits :=
  inferInstanceAs (Decidable (_ ≤ _))

/-- A line of one of the caches, which are numbered by level from zero. -/
structure Line where
  level : ℕ
  set : ℕ
  way : ℕ
  deriving DecidableEq, Repr

/-- The line an operand names. -/
def lineOf (geometry : ℕ → Geometry) (operand : BitVec 32) : Line :=
  let level := operand.toNat / 2 % 8
  let g := geometry level
  { level := level
    set := operand.toNat / 2 ^ g.lineBits % 2 ^ g.setBits
    way := operand.toNat / 2 ^ (32 - g.wayBits) }

/-! ## Fields of a sum -/

/-- A number below a power of two, under the multiples of that power. -/
theorem mul_two_pow_add_div
    {a b k : ℕ} (hb : b < 2 ^ k) : (a * 2 ^ k + b) / 2 ^ k = a := by
  rw [Nat.mul_comm, Nat.mul_add_div (Nat.two_pow_pos k), Nat.div_eq_of_lt hb,
    Nat.add_zero]

/-- An or of fields that do not overlap is their sum. -/
theorem mul_two_pow_or
    {a b k : ℕ} (hb : b < 2 ^ k) : b ||| a * 2 ^ k = a * 2 ^ k + b := by
  rw [Nat.or_comm, ← Nat.shiftLeft_eq, Nat.shiftLeft_add_eq_or_of_lt hb]

theorem lt_two_pow_setBits
    {set : ℕ} (hset : set ≤ g.numSets) : set < 2 ^ g.setBits :=
  lt_of_le_of_lt hset (Nat.lt_size_self _)

theorem lt_two_pow_wayBits
    {way : ℕ} (hway : way ≤ g.associativity) : way < 2 ^ g.wayBits :=
  lt_of_le_of_lt hway (Nat.lt_size_self _)

section Operand

variable {level set way shift : ℕ}

/-- The level stays below the set. -/
theorem level_lt
    (hlevel : level < 8) (hlow : 4 ≤ shift) : level * 2 < 2 ^ shift :=
  calc level * 2 < 2 ^ 4 := by omega
    _ ≤ 2 ^ shift := Nat.pow_le_pow_right (by decide) hlow

/-- Level and set, with the set at some shift, stay below the way. -/
theorem low_lt
    (hlevel : level < 8) (hset : set ≤ g.numSets) (hlow : 4 ≤ shift)
    (hshift : shift ≤ g.lineBits) :
    set * 2 ^ shift + level * 2 < 2 ^ (g.lineBits + g.setBits) := by
  calc set * 2 ^ shift + level * 2 < (set + 1) * 2 ^ shift := by
        rw [Nat.add_mul, Nat.one_mul]
        exact Nat.add_lt_add_left (level_lt hlevel hlow) _
    _ ≤ 2 ^ g.setBits * 2 ^ g.lineBits := by
        apply Nat.mul_le_mul
        · exact lt_two_pow_setBits hset
        · exact Nat.pow_le_pow_right (by decide) hshift
    _ = 2 ^ (g.lineBits + g.setBits) := by rw [Nat.add_comm, pow_add]

/-- The operand, put together field by field. -/
def operand (level set way shift wayShift : ℕ) : BitVec 32 :=
  BitVec.ofNat 32 (level * 2 ||| set * 2 ^ shift ||| way * 2 ^ wayShift)

theorem toNat_operand
    (hlevel : level < 8) (hset : set ≤ g.numSets) (hway : way ≤ g.associativity)
    (hlow : 4 ≤ shift) (hshift : shift ≤ g.lineBits) (hfits : g.Fits) :
    (operand level set way shift (32 - g.wayBits)).toNat =
      way * 2 ^ (32 - g.wayBits) + (set * 2 ^ shift + level * 2) := by
  have hbelow : set * 2 ^ shift + level * 2 < 2 ^ (32 - g.wayBits) := by
    apply lt_of_lt_of_le (low_lt hlevel hset hlow hshift)
    apply Nat.pow_le_pow_right (by decide)
    rw [Geometry.Fits] at hfits
    omega
  have hlt :
      way * 2 ^ (32 - g.wayBits) + (set * 2 ^ shift + level * 2) < 2 ^ 32 := by
    calc way * 2 ^ (32 - g.wayBits) + (set * 2 ^ shift + level * 2) <
          (way + 1) * 2 ^ (32 - g.wayBits) := by
          rw [Nat.add_mul, Nat.one_mul]
          exact Nat.add_lt_add_left hbelow _
      _ ≤ 2 ^ g.wayBits * 2 ^ (32 - g.wayBits) :=
          Nat.mul_le_mul_right _ (lt_two_pow_wayBits hway)
      _ = 2 ^ 32 := by
          rw [← pow_add]
          congr 1
          rw [Geometry.Fits] at hfits
          omega
  rw [operand, mul_two_pow_or (level_lt hlevel hlow), mul_two_pow_or hbelow, BitVec.toNat_ofNat,
    Nat.mod_eq_of_lt hlt]

/-- With the set at a shift below the right one, the operand names the set
without its low bits. -/
theorem lineOf_operand
    {geometry : ℕ → Geometry} (hg : geometry level = g)
    (hlevel : level < 8) (hset : set ≤ g.numSets) (hway : way ≤ g.associativity)
    (hlow : 4 ≤ shift) (hshift : shift ≤ g.lineBits) (hfits : g.Fits) :
    lineOf geometry (operand level set way shift (32 - g.wayBits)) =
      { level := level, set := set / 2 ^ (g.lineBits - shift), way := way } := by
  have htoNat := toNat_operand hlevel hset hway hlow hshift hfits
  have hbelow := low_lt hlevel hset hlow hshift
  rw [Geometry.Fits] at hfits
  have hlevel' : (operand level set way shift (32 - g.wayBits)).toNat / 2 % 8 = level := by
    obtain ⟨k, rfl⟩ := Nat.exists_eq_add_of_le hlow
    obtain ⟨m, hm⟩ : ∃ m, 32 - g.wayBits = 4 + m :=
      Nat.exists_eq_add_of_le (by rw [Geometry.lineBits] at hfits; omega)
    have hsum :
        way * 2 ^ (32 - g.wayBits) + (set * 2 ^ (4 + k) + level * 2) =
          16 * (way * 2 ^ m + set * 2 ^ k) + level * 2 := by
      rw [hm]
      ring
    rw [htoNat, hsum]
    omega
  have hset' :
      (operand level set way shift (32 - g.wayBits)).toNat / 2 ^ g.lineBits %
          2 ^ g.setBits =
        set / 2 ^ (g.lineBits - shift) := by
    obtain ⟨k, hk⟩ := Nat.exists_eq_add_of_le hshift
    obtain ⟨m, hm⟩ : ∃ m, 32 - g.wayBits = g.lineBits + g.setBits + m :=
      Nat.exists_eq_add_of_le (by omega)
    have hhigh :
        way * 2 ^ (32 - g.wayBits) + (set * 2 ^ shift + level * 2) =
          2 ^ g.lineBits * (2 ^ g.setBits * (way * 2 ^ m)) +
            (set * 2 ^ shift + level * 2) := by
      rw [hm, pow_add, pow_add]
      ring
    have hlow' :
        (set * 2 ^ shift + level * 2) / 2 ^ g.lineBits =
          set / 2 ^ (g.lineBits - shift) := by
      have hpow : 2 ^ g.lineBits = 2 ^ shift * 2 ^ (g.lineBits - shift) := by
        rw [← pow_add]
        congr 1
        omega
      rw [hpow, ← Nat.div_div_eq_div_mul, 
        mul_two_pow_add_div (level_lt hlevel hlow)]
    have hlt : set / 2 ^ (g.lineBits - shift) < 2 ^ g.setBits :=
      lt_of_le_of_lt (Nat.div_le_self _ _) (lt_two_pow_setBits hset)
    rw [htoNat, hhigh, Nat.mul_add_div (Nat.two_pow_pos _), hlow',
      Nat.mul_add_mod, Nat.mod_eq_of_lt hlt]
  have hway' :
      (operand level set way shift (32 - g.wayBits)).toNat /
          2 ^ (32 - g.wayBits) = way := by
    rw [htoNat]
    apply mul_two_pow_add_div
    apply lt_of_lt_of_le hbelow
    exact Nat.pow_le_pow_right (by decide) (by omega)
  simp only [lineOf, hlevel', hg, hset', hway']

end Operand

end SetWay
