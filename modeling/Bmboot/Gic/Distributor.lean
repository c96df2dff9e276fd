import Bmboot.Lib.RegisterBank
import Mathlib.Data.Int.Init

/-!
# The GICv2 distributor

The registers of `GICD` (`gicv2.hpp`) that the monitor reads or writes, and
its seven operations on them.  A pair of set and clear registers is one bank of
what the two read back.  Interrupt ids are `int`s: division and remainder
truncate towards zero.
-/

namespace Bmboot

open RegisterBank

/-- The distributor. -/
structure Gicd where
  igroupr : ℤ → BitVec 32
  enabler : ℤ → BitVec 32
  pendr : ℤ → BitVec 32
  activer : ℤ → BitVec 32
  ipriorityr : ℤ → BitVec 8
  itargetsr : ℤ → BitVec 8
  icfgr : ℤ → BitVec 32

namespace Gicd

/-- The mask `1 << (interrupt_id % 32)`. -/
def interruptMask (id : ℤ) : BitVec 32 := 1#32 <<< (id.tmod 32).toNat

/-- The mask `0b10 << ((interrupt_id % 16) * 2)`. -/
def triggerMask (id : ℤ) : BitVec 32 := 0b10#32 <<< (id.tmod 16 * 2).toNat

def clearActive (d : Gicd) (id : ℤ) : Gicd :=
  { d with activer := clearMask d.activer (id.tdiv 32) (interruptMask id) }

def clearEnable (d : Gicd) (id : ℤ) : Gicd :=
  { d with enabler := clearMask d.enabler (id.tdiv 32) (interruptMask id) }

def clearPending (d : Gicd) (id : ℤ) : Gicd :=
  { d with pendr := clearMask d.pendr (id.tdiv 32) (interruptMask id) }

def setEnable (d : Gicd) (id : ℤ) : Gicd :=
  { d with enabler := setMask d.enabler (id.tdiv 32) (interruptMask id) }

/-- The word `setGroup` stores when it has read `word`. -/
def groupWord (word : BitVec 32) (id : ℤ) (group : ℤ) : BitVec 32 :=
  (word &&& ~~~interruptMask id) ||| if group ≠ 0 then interruptMask id else 0

def setGroup (d : Gicd) (id : ℤ) (group : ℤ) : Gicd :=
  { d with
    igroupr := Function.update d.igroupr (id.tdiv 32)
      (groupWord (d.igroupr (id.tdiv 32)) id group) }

def setTriggerEdge (d : Gicd) (id : ℤ) : Gicd :=
  { d with
    icfgr := Function.update d.icfgr (id.tdiv 16)
      (d.icfgr (id.tdiv 16) ||| triggerMask id) }

def setTriggerLevel (d : Gicd) (id : ℤ) : Gicd :=
  { d with
    icfgr := Function.update d.icfgr (id.tdiv 16)
      (d.icfgr (id.tdiv 16) &&& triggerMask id) }

/-- A store to the byte `IPRIORITYRn[id]`. -/
def writePriority (d : Gicd) (id : ℤ) (priority : BitVec 8) : Gicd :=
  { d with ipriorityr := Function.update d.ipriorityr id priority }

/-- A store to the byte `ITARGETSRn[id]`. -/
def writeTargets (d : Gicd) (id : ℤ) (targets : BitVec 8) : Gicd :=
  { d with itargetsr := Function.update d.itargetsr id targets }

theorem triggerMask_eq (id : ℤ) :
    triggerMask id = 1#32 <<< ((id.tmod 16 * 2).toNat + 1) := by
  have htwo : 0b10#32 = 1#32 <<< 1 := by decide
  rw [triggerMask, htwo, ← BitVec.shiftLeft_add, Nat.add_comm]

/-! ## The attributes of one interrupt -/

def enabled (d : Gicd) (id : ℤ) : Bool :=
  bit d.enabler (id.tdiv 32) (id.tmod 32).toNat

/-- Whether the interrupt is in group 1, routed to EL1 as IRQ. -/
def inGroup1 (d : Gicd) (id : ℤ) : Bool :=
  bit d.igroupr (id.tdiv 32) (id.tmod 32).toNat

def active (d : Gicd) (id : ℤ) : Bool :=
  bit d.activer (id.tdiv 32) (id.tmod 32).toNat

def targets (d : Gicd) (id : ℤ) (cpu : ℕ) : Bool :=
  (d.itargetsr id).getLsbD cpu

/-- Different interrupts have different places in a bank of 32 each. -/
theorem place_eq_iff
    {id id' : ℤ} (h : 0 ≤ id) (h' : 0 ≤ id') :
    id'.tdiv 32 = id.tdiv 32 ∧ (id'.tmod 32).toNat = (id.tmod 32).toNat ↔
      id' = id := by
  rw [Int.tdiv_eq_ediv_of_nonneg h, Int.tdiv_eq_ediv_of_nonneg h',
    Int.tmod_eq_emod_of_nonneg h, Int.tmod_eq_emod_of_nonneg h']
  omega

theorem decide_place_eq {id id' : ℤ} (h : 0 ≤ id) (h' : 0 ≤ id') :
    decide (id'.tdiv 32 = id.tdiv 32 ∧
      (id'.tmod 32).toNat = (id.tmod 32).toNat) = decide (id' = id) :=
  decide_eq_decide.mpr (place_eq_iff h h')

theorem place_lt {id : ℤ} (h : 0 ≤ id) : (id.tmod 32).toNat < 32 := by
  rw [Int.tmod_eq_emod_of_nonneg h]
  omega

section Operations

variable (d : Gicd) {id id' : ℤ}

theorem enabled_setEnable (h : 0 ≤ id) (h' : 0 ≤ id') :
    (d.setEnable id).enabled id' = (d.enabled id' || decide (id' = id)) := by
  have hbit := bit_setMask d.enabler (id.tdiv 32) (id'.tdiv 32)
    (k := (id.tmod 32).toNat) (place_lt h')
  rw [decide_place_eq h h'] at hbit
  exact hbit

theorem enabled_clearEnable (h : 0 ≤ id) (h' : 0 ≤ id') :
    (d.clearEnable id).enabled id' = (d.enabled id' && !decide (id' = id)) := by
  have hbit := bit_clearMask d.enabler (id.tdiv 32) (id'.tdiv 32)
    (k := (id.tmod 32).toNat) (place_lt h')
  rw [decide_place_eq h h'] at hbit
  exact hbit

/-- Setting a group is clearing the bit and then, for group 1, setting it. -/
theorem setGroup_igroupr (group : ℤ) :
    (d.setGroup id group).igroupr =
      if group ≠ 0 then
        setMask (clearMask d.igroupr (id.tdiv 32) (interruptMask id))
          (id.tdiv 32) (interruptMask id)
      else clearMask d.igroupr (id.tdiv 32) (interruptMask id) := by
  by_cases h : group = 0
  · simp [setGroup, groupWord, clearMask, h]
  · simp [setGroup, groupWord, clearMask, setMask, h]

theorem inGroup1_setGroup (group : ℤ) (h : 0 ≤ id) (h' : 0 ≤ id') :
    (d.setGroup id group).inGroup1 id' =
      if id' = id then decide (group ≠ 0) else d.inGroup1 id' := by
  have hlt := place_lt h'
  have hclear : bit (clearMask d.igroupr (id.tdiv 32) (interruptMask id))
      (id'.tdiv 32) (id'.tmod 32).toNat =
        (d.inGroup1 id' && !decide (id' = id)) := by
    rw [interruptMask, bit_clearMask _ _ _ hlt,
      decide_place_eq h h', inGroup1]
  rw [inGroup1, setGroup_igroupr]
  by_cases hg : group = 0
  · rw [if_neg (by simpa using hg), hclear]
    by_cases hid : id' = id <;> simp [hid, hg]
  · rw [if_pos hg]
    have hset := bit_setMask
      (clearMask d.igroupr (id.tdiv 32) (interruptMask id))
      (id.tdiv 32) (id'.tdiv 32) (k := (id.tmod 32).toNat) hlt
    rw [hclear, decide_place_eq h h'] at hset
    refine hset.trans ?_
    by_cases hid : id' = id <;> simp [hid, hg]

end Operations

end Gicd

end Bmboot
