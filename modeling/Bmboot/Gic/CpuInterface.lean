import Bmboot.Gic.KillInterrupt
import Bmboot.Gic.OneInterrupt

/-!
# The CPU interface of a core

Which of the pending interrupts the interface acknowledges, and when it asserts
FIQ.  Of those that the distributor forwards, the most urgent one counts,
whatever its group (`AckCtl`); it is signalled only if it is more urgent than
all that have been acknowledged and not ended, looking at the upper bits of the
priority.
-/

namespace Bmboot

/-- An acknowledged interrupt, with the priority it had then. -/
structure ActiveInterrupt where
  id : ℤ
  priority : BitVec 8
  deriving DecidableEq

/-- The part of a priority that decides about preemption.  How many of the lower
bits do not count is given by the binary point register of group 1. -/
def preemptionLevel (binaryPoint : ℕ) (priority : BitVec 8) : ℕ :=
  priority.toNat / 2 ^ binaryPoint

def ActiveInterrupt.level (binaryPoint : ℕ) (a : ActiveInterrupt) : ℕ :=
  preemptionLevel binaryPoint a.priority

/-- A priority without the bits that do not count. -/
def groupPriority (binaryPoint : ℕ) (priority : BitVec 8) : ℕ :=
  preemptionLevel binaryPoint priority * 2 ^ binaryPoint

theorem groupPriority_pos_iff {binaryPoint : ℕ} {priority : BitVec 8} :
    0 < groupPriority binaryPoint priority ↔
      2 ^ binaryPoint ≤ priority.toNat := by
  have hpos : 0 < 2 ^ binaryPoint := Nat.two_pow_pos binaryPoint
  rw [groupPriority, preemptionLevel, Nat.mul_pos_iff_of_pos_right hpos,
    Nat.div_pos_iff]
  exact and_iff_right hpos

@[simp] theorem groupPriority_zero (binaryPoint : ℕ) :
    groupPriority binaryPoint 0 = 0 := by
  simp [groupPriority, preemptionLevel]

namespace Gicd

/-- What acknowledging an interrupt does to the distributor. -/
def setActive (d : Gicd) (id : ℤ) : Gicd :=
  { d with
    activer :=
      RegisterBank.setMask d.activer (id.tdiv 32) (interruptMask id) }

theorem active_setActive (d : Gicd) {id id' : ℤ} (h : 0 ≤ id) (h' : 0 ≤ id') :
    (d.setActive id).active id' = (d.active id' || decide (id' = id)) := by
  have hbit := RegisterBank.bit_setMask d.activer (id.tdiv 32) (id'.tdiv 32)
    (k := (id.tmod 32).toNat) (place_lt h')
  rw [decide_place_eq h h'] at hbit
  exact hbit

end Gicd

namespace Interrupts

/-- An enabled interrupt would get through to the core.  Interrupts below 32
are the core's own. -/
structure Reaches (cpu : DomainIndex) (irq : Interrupts) (id : ℤ) : Prop where
  target : id < 32 ∨ irq.gicd.targets id cpu.cpuIndex = true
  mask : (irq.gicd.ipriorityr id).toNat < irq.gicc.pmr.toNat
  group : irq.gicc.ctrl.getLsbD (if irq.gicd.inGroup1 id then 1 else 0) = true

/-- The distributor forwards the interrupt to the core when it is pending. -/
structure Forwards (cpu : DomainIndex) (irq : Interrupts) (id : ℤ) : Prop
    extends Reaches cpu irq id where
  enabled : irq.gicd.enabled id = true
  inactive : irq.gicd.active id = false

section Forwarding

variable {cpu : DomainIndex} {irq : Interrupts} {id : ℤ}

theorem reaches_iff :
    irq.Reaches cpu id ↔
      (id < 32 ∨ irq.gicd.targets id cpu.cpuIndex = true) ∧
        (irq.gicd.ipriorityr id).toNat < irq.gicc.pmr.toNat ∧
        irq.gicc.ctrl.getLsbD (if irq.gicd.inGroup1 id then 1 else 0) =
          true := by
  constructor
  · rintro ⟨htarget, hmask, hgroup⟩
    exact ⟨htarget, hmask, hgroup⟩
  · rintro ⟨htarget, hmask, hgroup⟩
    exact ⟨htarget, hmask, hgroup⟩

theorem forwards_iff :
    irq.Forwards cpu id ↔
      irq.Reaches cpu id ∧ irq.gicd.enabled id = true ∧
        irq.gicd.active id = false := by
  constructor
  · rintro ⟨hreaches, henabled, hinactive⟩
    exact ⟨hreaches, henabled, hinactive⟩
  · rintro ⟨hreaches, henabled, hinactive⟩
    exact ⟨hreaches, henabled, hinactive⟩

end Forwarding

instance (cpu : DomainIndex) (irq : Interrupts) (id : ℤ) :
    Decidable (irq.Reaches cpu id) :=
  decidable_of_iff _ reaches_iff.symm

instance (cpu : DomainIndex) (irq : Interrupts) (id : ℤ) :
    Decidable (irq.Forwards cpu id) :=
  decidable_of_iff _ forwards_iff.symm

/-- Among interrupts of one priority the lowest id comes first. -/
def MoreUrgent (irq : Interrupts) (id id' : ℤ) : Prop :=
  (irq.gicd.ipriorityr id).toNat < (irq.gicd.ipriorityr id').toNat ∨
    irq.gicd.ipriorityr id = irq.gicd.ipriorityr id' ∧ id < id'

/-- With the given interrupts pending, `IAR` reads as `id`. -/
structure Acknowledges (cpu : DomainIndex) (irq : Interrupts)
    (pending : ℤ → Prop) (id : ℤ) : Prop where
  pends : pending id
  forwards : irq.Forwards cpu id
  first : ∀ id', pending id' → irq.Forwards cpu id' → id' ≠ id →
    irq.MoreUrgent id id'

/-- With the given interrupts pending, and others acknowledged and not ended,
the core takes an FIQ, and its handler finds interrupt `id`. -/
structure TakesFiq (cpu : DomainIndex) (binaryPoint : ℕ) (irq : Interrupts)
    (active : List ActiveInterrupt) (pending : ℤ → Prop) (id : ℤ) :
    Prop where
  acknowledges : irq.Acknowledges cpu pending id
  group0 : irq.gicd.inGroup1 id = false
  fiqEn : irq.gicc.ctrl.getLsbD 3 = true
  unmasked : irq.fiqMasked = false
  preempts : ∀ a ∈ active,
    groupPriority (irq.gicc.bpr.toNat + 1) (irq.gicd.ipriorityr id) <
      groupPriority binaryPoint a.priority

end Interrupts

end Bmboot
