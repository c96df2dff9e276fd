import Bmboot.Lib.Routine
import Bmboot.Lib.SetWay

/-!
# Invalidating the data caches

`invalidate_dcaches` of `boot.S`, which the monitor and every payload run
before they switch the caches on: three nested loops over levels, sets and
ways, one block of instructions a step.  The operands given to `dc CISW` are
kept, so that the lines they name can be told.
-/

namespace Bmboot

open SetWay

/-! ## The routine -/

/-- The cache identification registers: `CLIDR_EL1`, and `CCSIDR_EL1` for every
value of `CSSELR_EL1`. -/
structure CacheRegisters where
  clidr : BitVec 32
  ccsidr : BitVec 32 → BitVec 32

/-- `ubfx`. -/
def ubfx (x : BitVec 32) (lsb width : ℕ) : BitVec 32 :=
  (x >>> lsb) &&& BitVec.ofNat 32 (2 ^ width - 1)

/-- `clz`. -/
def clz (x : BitVec 32) : BitVec 32 := BitVec.ofNat 32 (32 - Nat.size x.toNat)

/-- `lsl` by a register, of which five bits count. -/
def lsl (x amount : BitVec 32) : BitVec 32 := x <<< (amount.toNat % 32)

/-- `lsr` by a register. -/
def lsr (x amount : BitVec 32) : BitVec 32 := x >>> (amount.toNat % 32)

/-- The registers that live across the loops over sets and ways. -/
structure FlushRegs where
  w1 : BitVec 32
  w2 : BitVec 32
  w3 : BitVec 32
  w4 : BitVec 32
  w5 : BitVec 32
  w6 : BitVec 32

/-- The labels of the routine, with the registers that live there. -/
inductive InvalidatePc
  | start
  | flushLevel (w1 w2 : BitVec 32)
  | flushSet (regs : FlushRegs)
  | flushWay (regs : FlushRegs) (w8 : BitVec 32)
  | nextLevel (w1 w2 : BitVec 32)

/-- The operand of `dc CISW`. -/
def FlushRegs.w7 (regs : FlushRegs) (w8 : BitVec 32) : BitVec 32 :=
  (regs.w1 <<< 1 ||| lsl regs.w5 regs.w3) ||| lsl w8 regs.w6

/-- One block of instructions.  A `subs` by one and `b.ge` go on if the value
before was positive. -/
def CacheRegisters.step (c : CacheRegisters) (log : List (BitVec 32)) :
    InvalidatePc → List (BitVec 32) × Routine.Next InvalidatePc Unit
  | .start =>
      let w2 := ubfx c.clidr 24 3
      if w2 = 0 then (log, .ret ()) else (log, .goto (.flushLevel 0 w2))
  | .flushLevel w1 w2 =>
      let w3 := ubfx (lsr c.clidr (w1 + w1 <<< 1)) 0 3
      if w3.slt 2 then (log, .goto (.nextLevel w1 w2))
      else
        let x4 := c.ccsidr (w1 <<< 1)
        let w3 := ubfx x4 0 3 + 2
        let w5 := ubfx x4 13 15
        let w4 := ubfx x4 3 10
        let w6 := clz w4
        (log, .goto (.flushSet ⟨w1, w2, w3, w4, w5, w6⟩))
  | .flushSet regs => (log, .goto (.flushWay regs regs.w4))
  | .flushWay regs w8 =>
      let log := log ++ [regs.w7 w8]
      if BitVec.slt 0 w8 then (log, .goto (.flushWay regs (w8 - 1)))
      else if BitVec.slt 0 regs.w5 then
        (log, .goto (.flushSet { regs with w5 := regs.w5 - 1 }))
      else (log, .goto (.nextLevel regs.w1 regs.w2))
  | .nextLevel w1 w2 =>
      let w1 := w1 + 1
      if w1.slt w2 then (log, .goto (.flushLevel w1 w2)) else (log, .ret ())

/-! ## The caches the registers describe -/

namespace CacheRegisters

variable (c : CacheRegisters)

/-- The cache of a level, counted from zero. -/
def geometry (level : ℕ) : Geometry :=
  let size := (c.ccsidr (BitVec.ofNat 32 (level * 2))).toNat
  { lineSize := size % 2 ^ 3
    associativity := size / 2 ^ 3 % 2 ^ 10
    numSets := size / 2 ^ 13 % 2 ^ 15 }

/-- The levels up to the point of coherency. -/
def levels : ℕ := c.clidr.toNat / 2 ^ 24 % 2 ^ 3

/-- A level up to the point of coherency that holds data. -/
def HoldsData (level : ℕ) : Prop :=
  level < c.levels ∧ 2 ≤ c.clidr.toNat / 2 ^ (3 * level) % 2 ^ 3

instance (level : ℕ) : Decidable (c.HoldsData level) :=
  inferInstanceAs (Decidable (_ ∧ _))

/-- Every cache has lines of 64 bytes or more, and its operands have room for
set and way. -/
def WellFormed : Prop :=
  ∀ level, level < c.levels →
    2 ≤ (c.geometry level).lineSize ∧ (c.geometry level).Fits

instance : Decidable c.WellFormed :=
  inferInstanceAs (Decidable (∀ level, level < c.levels → _))

end CacheRegisters

/-! ## Registers as numbers -/

theorem toNat_ubfx
    (x : BitVec 32) {lsb width : ℕ} (hwidth : width < 32) :
    (ubfx x lsb width).toNat = x.toNat / 2 ^ lsb % 2 ^ width := by
  have hmask : 2 ^ width - 1 < 2 ^ 32 := by
    have hpow : 2 ^ width < 2 ^ 32 := Nat.pow_lt_pow_right (by decide) hwidth
    omega
  rw [ubfx, BitVec.toNat_and, BitVec.toNat_ushiftRight, BitVec.toNat_ofNat,
    Nat.mod_eq_of_lt hmask, Nat.and_two_pow_sub_one_eq_mod, Nat.shiftRight_eq_div_pow]

theorem slt_ofNat
    {m n : ℕ} (hm : m < 2 ^ 31) (hn : n < 2 ^ 31) :
    (BitVec.ofNat 32 m).slt (BitVec.ofNat 32 n) = decide (m < n) := by
  have hm' : (BitVec.ofNat 32 m).toInt = m := by
    rw [BitVec.toInt_eq_toNat_of_lt] <;> rw [BitVec.toNat_ofNat] <;> omega
  have hn' : (BitVec.ofNat 32 n).toInt = n := by
    rw [BitVec.toInt_eq_toNat_of_lt] <;> rw [BitVec.toNat_ofNat] <;> omega
  rw [BitVec.slt, hm', hn', decide_eq_decide]
  omega

theorem zero_slt_ofNat
    {n : ℕ} (hn : n < 2 ^ 31) :
    BitVec.slt 0 (BitVec.ofNat 32 n) = decide (0 < n) :=
  slt_ofNat (m := 0) (by decide) hn

theorem ofNat_succ_sub_one
    (n : ℕ) : BitVec.ofNat 32 (n + 1) - 1 = BitVec.ofNat 32 n := by
  rw [BitVec.ofNat_add]
  exact BitVec.add_sub_cancel _ _

theorem ofNat_add_one
    (n : ℕ) : BitVec.ofNat 32 n + 1 = BitVec.ofNat 32 (n + 1) := by
  rw [BitVec.ofNat_add]
  rfl

theorem lsl_ofNat
    (x : ℕ) {amount : ℕ} (hamount : amount < 32) :
    lsl (BitVec.ofNat 32 x) (BitVec.ofNat 32 amount) =
      BitVec.ofNat 32 (x * 2 ^ amount) := by
  have hmod : (BitVec.ofNat 32 amount).toNat % 32 = amount := by
    rw [BitVec.toNat_ofNat]
    omega
  apply BitVec.eq_of_toNat_eq
  rw [lsl, hmod, BitVec.toNat_shiftLeft, BitVec.toNat_ofNat, BitVec.toNat_ofNat,
    Nat.shiftLeft_eq, Nat.mod_mul_mod]

theorem ofNat_shiftLeft_one
    (x : ℕ) : BitVec.ofNat 32 x <<< 1 = BitVec.ofNat 32 (x * 2) := by
  apply BitVec.eq_of_toNat_eq
  rw [BitVec.toNat_shiftLeft, BitVec.toNat_ofNat, BitVec.toNat_ofNat,
    Nat.shiftLeft_eq, Nat.mod_mul_mod]

/-! ## The loops -/

namespace CacheRegisters

variable (c : CacheRegisters)

/-- The registers in the loops over a level, at a set. -/
def flushRegs (level set : ℕ) : FlushRegs where
  w1 := BitVec.ofNat 32 level
  w2 := BitVec.ofNat 32 c.levels
  w3 := BitVec.ofNat 32 ((c.geometry level).lineSize + 2)
  w4 := BitVec.ofNat 32 (c.geometry level).associativity
  w5 := BitVec.ofNat 32 set
  w6 := BitVec.ofNat 32 (32 - (c.geometry level).wayBits)

/-- The operand for a line. -/
def cleanOperand (level set way : ℕ) : BitVec 32 :=
  operand level set way ((c.geometry level).lineSize + 2)
    (32 - (c.geometry level).wayBits)

theorem lineSize_lt (level : ℕ) : (c.geometry level).lineSize < 8 :=
  Nat.mod_lt _ (by decide)

theorem associativity_lt (level : ℕ) : (c.geometry level).associativity < 1024 :=
  Nat.mod_lt _ (by decide)

theorem numSets_lt (level : ℕ) : (c.geometry level).numSets < 32768 :=
  Nat.mod_lt _ (by decide)

theorem levels_lt : c.levels < 8 :=
  Nat.mod_lt _ (by decide)

theorem w7_flushRegs
    {level set way : ℕ} (hway : way ≤ (c.geometry level).associativity) :
    (c.flushRegs level set).w7 (BitVec.ofNat 32 way) =
      c.cleanOperand level set way := by
  have hline := c.lineSize_lt level
  have hwayShift :
      lsl (BitVec.ofNat 32 way)
          (BitVec.ofNat 32 (32 - (c.geometry level).wayBits)) =
        BitVec.ofNat 32 (way * 2 ^ (32 - (c.geometry level).wayBits)) := by
    by_cases hzero : (c.geometry level).wayBits = 0
    · -- a direct-mapped cache: the shift is by 32, of which nothing counts
      have hassoc : (c.geometry level).associativity = 0 :=
        Nat.size_eq_zero.mp hzero
      have hway0 : way = 0 := by omega
      rw [hway0, Nat.zero_mul]
      simp [lsl]
    · exact lsl_ofNat way (by omega)
  rw [FlushRegs.w7, flushRegs, ofNat_shiftLeft_one, lsl_ofNat _ (by omega),
    hwayShift, ← BitVec.ofNat_or, ← BitVec.ofNat_or]
  rfl

/-- The operands of one set, the highest way first. -/
def setOperands (level set : ℕ) : List (BitVec 32) :=
  (List.range ((c.geometry level).associativity + 1)).reverse.map
    (c.cleanOperand level set)

/-- The operands of one level, the highest set first. -/
def levelOperands (level : ℕ) : List (BitVec 32) :=
  if 2 ≤ c.clidr.toNat / 2 ^ (3 * level) % 2 ^ 3 then
    (List.range ((c.geometry level).numSets + 1)).reverse.flatMap
      (c.setOperands level)
  else []

open Routine

/-- From a set on, the loop over the ways gives the operands of its lines. -/
theorem flushWay_completes
    {level set way : ℕ} {log log' : List (BitVec 32)}
    (hway : way ≤ (c.geometry level).associativity)
    (hset : set ≤ (c.geometry level).numSets)
    (hrest :
      Completes c.step
        (log ++ (List.range (way + 1)).reverse.map (c.cleanOperand level set))
        (if 0 < set then .flushSet (c.flushRegs level (set - 1))
          else .nextLevel (BitVec.ofNat 32 level) (BitVec.ofNat 32 c.levels))
        log' ()) :
    Completes c.step log
      (.flushWay (c.flushRegs level set) (BitVec.ofNat 32 way)) log' () := by
  have hassoc := c.associativity_lt level
  have hsets := c.numSets_lt level
  induction way generalizing log with
  | zero =>
      have hlog :
          log ++ [(c.flushRegs level set).w7 (BitVec.ofNat 32 0)] =
            log ++ (List.range 1).reverse.map (c.cleanOperand level set) := by
        rw [c.w7_flushRegs hway]
        rfl
      have hw5 : BitVec.slt 0 (c.flushRegs level set).w5 = decide (0 < set) :=
        zero_slt_ofNat (by omega)
      rw [← hlog] at hrest
      by_cases hpos : 0 < set
      · rw [if_pos hpos] at hrest
        have hdec :
            { c.flushRegs level set with w5 := (c.flushRegs level set).w5 - 1 } =
              c.flushRegs level (set - 1) := by
          obtain ⟨set', rfl⟩ : ∃ set', set = set' + 1 := ⟨set - 1, by omega⟩
          simp only [flushRegs, Nat.add_sub_cancel, ofNat_succ_sub_one]
        refine .goto ?_ hrest
        simp only [step, hw5, hpos, decide_true, if_true, hdec]
        rfl
      · rw [if_neg hpos] at hrest
        refine .goto ?_ hrest
        simp only [step, hw5, hpos, decide_false]
        rfl
  | succ way ih =>
      have hpos : BitVec.slt 0 (BitVec.ofNat 32 (way + 1)) = true := by
        rw [zero_slt_ofNat (by omega)]
        exact decide_eq_true (Nat.succ_pos way)
      have hstep :
          c.step log
              (.flushWay (c.flushRegs level set) (BitVec.ofNat 32 (way + 1))) =
            (log ++ [c.cleanOperand level set (way + 1)],
              .goto (.flushWay (c.flushRegs level set) (BitVec.ofNat 32 way))) := by
        simp only [step, hpos, if_true, c.w7_flushRegs hway, ofNat_succ_sub_one]
      refine .goto hstep (ih (by omega) ?_)
      rw [List.range_succ, List.reverse_append] at hrest
      simpa using hrest

/-- From a set on, the loop over the sets gives the operands of all its lower
sets. -/
theorem flushSet_completes
    {level set : ℕ} {log log' : List (BitVec 32)}
    (hset : set ≤ (c.geometry level).numSets)
    (hrest :
      Completes c.step
        (log ++ (List.range (set + 1)).reverse.flatMap (c.setOperands level))
        (.nextLevel (BitVec.ofNat 32 level) (BitVec.ofNat 32 c.levels)) log' ()) :
    Completes c.step log (.flushSet (c.flushRegs level set)) log' () := by
  induction set generalizing log with
  | zero =>
      refine .goto rfl (c.flushWay_completes le_rfl hset ?_)
      simpa [setOperands] using hrest
  | succ set ih =>
      refine .goto rfl (c.flushWay_completes le_rfl hset ?_)
      rw [if_pos (Nat.succ_pos set), Nat.add_sub_cancel]
      apply ih (by omega)
      rw [List.range_succ, List.reverse_append] at hrest
      simpa [setOperands] using hrest

/-- The registers set up for a level. -/
theorem step_flushLevel
    (log : List (BitVec 32)) {level : ℕ} (hlevel : level < c.levels) :
    c.step log
        (.flushLevel (BitVec.ofNat 32 level) (BitVec.ofNat 32 c.levels)) =
      (log,
        .goto
          (if 2 ≤ c.clidr.toNat / 2 ^ (3 * level) % 2 ^ 3 then
            .flushSet (c.flushRegs level (c.geometry level).numSets)
          else
            .nextLevel (BitVec.ofNat 32 level) (BitVec.ofNat 32 c.levels))) := by
  have hlevels := c.levels_lt
  have hshift :
      BitVec.ofNat 32 level + BitVec.ofNat 32 level <<< 1 =
        BitVec.ofNat 32 (3 * level) := by
    rw [ofNat_shiftLeft_one, ← BitVec.ofNat_add]
    congr 1
    omega
  have htype :
      ubfx (lsr c.clidr (BitVec.ofNat 32 (3 * level))) 0 3 =
        BitVec.ofNat 32 (c.clidr.toNat / 2 ^ (3 * level) % 2 ^ 3) := by
    have hmod : (BitVec.ofNat 32 (3 * level)).toNat % 32 = 3 * level := by
      rw [BitVec.toNat_ofNat]
      omega
    apply BitVec.eq_of_toNat_eq
    rw [toNat_ubfx _ (by decide), lsr, hmod, BitVec.toNat_ushiftRight,
      Nat.shiftRight_eq_div_pow, pow_zero, Nat.div_one, BitVec.toNat_ofNat]
    exact (Nat.mod_eq_of_lt (by omega)).symm
  have hslt :
      (BitVec.ofNat 32 (c.clidr.toNat / 2 ^ (3 * level) % 2 ^ 3)).slt 2 =
        decide (c.clidr.toNat / 2 ^ (3 * level) % 2 ^ 3 < 2) :=
    slt_ofNat (n := 2) (by omega) (by decide)
  simp only [step, hshift, htype, hslt]
  by_cases hdata : 2 ≤ c.clidr.toNat / 2 ^ (3 * level) % 2 ^ 3
  · have hlt : ¬c.clidr.toNat / 2 ^ (3 * level) % 2 ^ 3 < 2 := by omega
    have hregs :
        (⟨BitVec.ofNat 32 level, BitVec.ofNat 32 c.levels,
          ubfx (c.ccsidr (BitVec.ofNat 32 level <<< 1)) 0 3 + 2,
          ubfx (c.ccsidr (BitVec.ofNat 32 level <<< 1)) 3 10,
          ubfx (c.ccsidr (BitVec.ofNat 32 level <<< 1)) 13 15,
          clz (ubfx (c.ccsidr (BitVec.ofNat 32 level <<< 1)) 3 10)⟩ : FlushRegs) =
          c.flushRegs level (c.geometry level).numSets := by
      rw [ofNat_shiftLeft_one]
      have hfield :
          ∀ lsb width, width < 32 →
            ubfx (c.ccsidr (BitVec.ofNat 32 (level * 2))) lsb width =
              BitVec.ofNat 32
                ((c.ccsidr (BitVec.ofNat 32 (level * 2))).toNat / 2 ^ lsb %
                  2 ^ width) := by
        intro lsb width hwidth
        rw [← toNat_ubfx _ hwidth, BitVec.ofNat_toNat, BitVec.setWidth_eq]
      have hways :
          (ubfx (c.ccsidr (BitVec.ofNat 32 (level * 2))) 3 10).toNat =
            (c.geometry level).associativity :=
        toNat_ubfx _ (by decide)
      have hline :
          ubfx (c.ccsidr (BitVec.ofNat 32 (level * 2))) 0 3 + 2 =
            BitVec.ofNat 32 ((c.geometry level).lineSize + 2) := by
        rw [hfield 0 3 (by decide), BitVec.ofNat_add]
        simp [geometry]
      rw [flushRegs, clz, hways, hline, hfield 3 10 (by decide),
        hfield 13 15 (by decide)]
      rfl
    rw [if_pos hdata, decide_eq_false hlt]
    simp only [Bool.false_eq_true, if_false, hregs]
  · have hlt : c.clidr.toNat / 2 ^ (3 * level) % 2 ^ 3 < 2 := by omega
    rw [if_neg hdata, decide_eq_true hlt, if_pos rfl]

/-- A level adds its operands, whether or not it holds data. -/
theorem flushLevel_step
    {level : ℕ} {log log' : List (BitVec 32)} (hlevel : level < c.levels)
    (hrest :
      Completes c.step (log ++ c.levelOperands level)
        (.nextLevel (BitVec.ofNat 32 level) (BitVec.ofNat 32 c.levels)) log' ()) :
    Completes c.step log
      (.flushLevel (BitVec.ofNat 32 level) (BitVec.ofNat 32 c.levels)) log' () := by
  have hstep := c.step_flushLevel log hlevel
  rw [levelOperands] at hrest
  by_cases hdata : 2 ≤ c.clidr.toNat / 2 ^ (3 * level) % 2 ^ 3
  · rw [if_pos hdata] at hstep hrest
    exact .goto hstep (c.flushSet_completes le_rfl hrest)
  · rw [if_neg hdata] at hstep hrest
    rw [List.append_nil] at hrest
    exact .goto hstep hrest

/-- From a level on, the routine ends with the operands of the levels up to the
point of coherency. -/
theorem flushLevel_completes
    {level count : ℕ} {log : List (BitVec 32)}
    (hcount : level + (count + 1) = c.levels) :
    Completes c.step log
      (.flushLevel (BitVec.ofNat 32 level) (BitVec.ofNat 32 c.levels))
      (log ++ (List.range' level (count + 1)).flatMap c.levelOperands) () := by
  have hlevels := c.levels_lt
  induction count generalizing level log with
  | zero =>
      have hlast :
          c.step (log ++ c.levelOperands level)
              (.nextLevel (BitVec.ofNat 32 level) (BitVec.ofNat 32 c.levels)) =
            (log ++ c.levelOperands level, .ret ()) := by
        simp only [step, ofNat_add_one]
        rw [slt_ofNat (by omega) (by omega), decide_eq_false (by omega)]
        rfl
      have hops :
          log ++ (List.range' level 1).flatMap c.levelOperands =
            log ++ c.levelOperands level := by
        simp
      rw [hops]
      exact c.flushLevel_step (by omega) (.ret hlast)
  | succ count ih =>
      have hnext :
          c.step (log ++ c.levelOperands level)
              (.nextLevel (BitVec.ofNat 32 level) (BitVec.ofNat 32 c.levels)) =
            (log ++ c.levelOperands level,
              .goto (.flushLevel (BitVec.ofNat 32 (level + 1))
                (BitVec.ofNat 32 c.levels))) := by
        simp only [step, ofNat_add_one]
        rw [slt_ofNat (by omega) (by omega), decide_eq_true (by omega)]
        rfl
      have hops :
          log ++ (List.range' level (count + 1 + 1)).flatMap c.levelOperands =
            log ++ c.levelOperands level ++
              (List.range' (level + 1) (count + 1)).flatMap c.levelOperands := by
        rw [List.range'_succ, List.flatMap_cons, List.append_assoc]
      rw [hops]
      exact c.flushLevel_step (by omega) (.goto hnext (ih (by omega)))

/-- The routine ends, with the operands of all levels in order. -/
theorem invalidateDcaches_completes :
    Completes c.step [] .start ((List.range c.levels).flatMap c.levelOperands) () := by
  have hlevels := c.levels_lt
  have hw2 : ubfx c.clidr 24 3 = BitVec.ofNat 32 c.levels := by
    apply BitVec.eq_of_toNat_eq
    rw [toNat_ubfx _ (by decide), BitVec.toNat_ofNat]
    exact (Nat.mod_eq_of_lt (by omega)).symm
  by_cases hzero : c.levels = 0
  · apply Completes.ret
    rw [hzero] at hw2 ⊢
    simp [step, hw2]
  · obtain ⟨count, hcount⟩ : ∃ count, 0 + (count + 1) = c.levels :=
      ⟨c.levels - 1, by omega⟩
    have hne : BitVec.ofNat 32 c.levels ≠ 0 := by
      intro h
      have htoNat := congrArg BitVec.toNat h
      rw [BitVec.toNat_ofNat] at htoNat
      have : (0 : BitVec 32).toNat = 0 := rfl
      omega
    have hstep :
        c.step [] .start =
          ([], .goto (.flushLevel (BitVec.ofNat 32 0) (BitVec.ofNat 32 c.levels))) := by
      simp only [step, hw2, if_neg hne]
      rfl
    have hrest :
        Completes c.step [] (.flushLevel (BitVec.ofNat 32 0) (BitVec.ofNat 32 c.levels))
          ([] ++ (List.range' 0 (count + 1)).flatMap c.levelOperands) () :=
      c.flushLevel_completes hcount
    rw [List.range_eq_range', ← hcount, Nat.zero_add]
    exact .goto hstep hrest

/-! ## The lines -/

/-- The lines of the caches that hold data, up to the point of coherency. -/
def HasLine (line : Line) : Prop :=
  c.HoldsData line.level ∧ line.set ≤ (c.geometry line.level).numSets ∧
    line.way ≤ (c.geometry line.level).associativity

/-- The set lands two bits too low in the operand: the shift is by the
logarithm of the words of a line, not of its bytes. -/
theorem lineOf_cleanOperand
    (hwf : c.WellFormed) {level set way : ℕ} (hlevel : level < c.levels)
    (hset : set ≤ (c.geometry level).numSets)
    (hway : way ≤ (c.geometry level).associativity) :
    lineOf c.geometry (c.cleanOperand level set way) =
      { level := level, set := set / 4, way := way } := by
  obtain ⟨hline, hfits⟩ := hwf level hlevel
  have hlevels := c.levels_lt
  have hdrop :
      (c.geometry level).lineBits - ((c.geometry level).lineSize + 2) = 2 := by
    rw [Geometry.lineBits]
    omega
  have hle : (c.geometry level).lineSize + 2 ≤ (c.geometry level).lineBits := by
    rw [Geometry.lineBits]
    omega
  rw [cleanOperand, lineOf_operand rfl (by omega) hset hway (by omega) hle hfits,
    hdrop]
  rfl

theorem mem_levelOperands
    {level : ℕ} {op : BitVec 32} :
    op ∈ c.levelOperands level ↔
      2 ≤ c.clidr.toNat / 2 ^ (3 * level) % 2 ^ 3 ∧
        ∃ set way, set ≤ (c.geometry level).numSets ∧
          way ≤ (c.geometry level).associativity ∧
          c.cleanOperand level set way = op := by
  rw [levelOperands]
  by_cases hdata : 2 ≤ c.clidr.toNat / 2 ^ (3 * level) % 2 ^ 3
  · rw [if_pos hdata, and_iff_right hdata]
    simp only [setOperands, List.mem_flatMap, List.mem_reverse, List.mem_range,
      List.mem_map, Nat.lt_succ_iff, exists_and_left]
  · rw [if_neg hdata]
    simp only [List.not_mem_nil, hdata, false_and]

/-- A line is cleaned if its set is one of the lower quarter. -/
theorem mem_lines
    (hwf : c.WellFormed) (line : Line) :
    line ∈ ((List.range c.levels).flatMap c.levelOperands).map (lineOf c.geometry) ↔
      c.HoldsData line.level ∧
        line.set ≤ (c.geometry line.level).numSets / 4 ∧
        line.way ≤ (c.geometry line.level).associativity := by
  simp only [List.mem_map, List.mem_flatMap, List.mem_range, mem_levelOperands]
  constructor
  · rintro ⟨op, ⟨level, hlevel, hdata, set, way, hset, hway, rfl⟩, rfl⟩
    rw [c.lineOf_cleanOperand hwf hlevel hset hway]
    exact ⟨⟨hlevel, hdata⟩, Nat.div_le_div_right hset, hway⟩
  · rintro ⟨⟨hlevel, hdata⟩, hset, hway⟩
    have hset4 : line.set * 4 ≤ (c.geometry line.level).numSets := by omega
    refine ⟨_, ⟨line.level, hlevel, hdata, line.set * 4, line.way, hset4, hway,
      rfl⟩, ?_⟩
    rw [c.lineOf_cleanOperand hwf hlevel hset4 hway, Nat.mul_div_cancel _ (by decide)]

/-- The routine ends.  If the caches have lines of 64 bytes or more, it has
cleaned and invalidated exactly the lines of the data caches, up to the point of
coherency, whose set is in the lower quarter; so it has reached every line just
if each of these caches has a single set. -/
theorem invalidateDcaches_lines
    (hwf : c.WellFormed) :
    ∃ operands, Completes c.step [] .start operands () ∧
      (∀ line, line ∈ operands.map (lineOf c.geometry) ↔
        c.HoldsData line.level ∧
          line.set ≤ (c.geometry line.level).numSets / 4 ∧
          line.way ≤ (c.geometry line.level).associativity) ∧
      ((∀ line, c.HasLine line → line ∈ operands.map (lineOf c.geometry)) ↔
        ∀ level, c.HoldsData level → (c.geometry level).numSets = 0) := by
  refine ⟨_, c.invalidateDcaches_completes, c.mem_lines hwf, ?_⟩
  constructor
  · intro hall level hdata
    have hmem :=
      hall ⟨level, (c.geometry level).numSets, 0⟩ ⟨hdata, le_rfl, Nat.zero_le _⟩
    have hquarter := ((c.mem_lines hwf _).mp hmem).2.1
    have hle : (c.geometry level).numSets ≤ (c.geometry level).numSets / 4 :=
      hquarter
    omega
  · rintro hsingle line ⟨hdata, hset, hway⟩
    rw [c.mem_lines hwf]
    rw [hsingle line.level hdata] at hset ⊢
    exact ⟨hdata, hset, hway⟩

end CacheRegisters

/-- The caches of the processor: 32 KB of data in 4 ways, then 1 MB in 16, with
lines of 64 bytes. -/
def cortexA53Caches : CacheRegisters where
  clidr := 0x0A200023
  ccsidr := fun csselr => if csselr = 0 then 0x700FE01A else 0x707FE07A

/-- On this processor a line of the 32nd set of the first cache stays as it
was. -/
theorem invalidateDcaches_lines_cortexA53 :
    cortexA53Caches.HasLine ⟨0, 32, 0⟩ ∧
      ∃ operands, Routine.Completes cortexA53Caches.step [] .start operands () ∧
        ⟨0, 32, 0⟩ ∉ operands.map (lineOf cortexA53Caches.geometry) := by
  have hwf : cortexA53Caches.WellFormed := by decide
  obtain ⟨operands, hcompletes, hlines, -⟩ :=
    cortexA53Caches.invalidateDcaches_lines hwf
  refine ⟨⟨by decide, by decide, by decide⟩, operands, hcompletes, ?_⟩
  rw [hlines]
  decide

end Bmboot
