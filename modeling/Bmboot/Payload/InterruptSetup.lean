import Bmboot.Monitor.Killable

/-!
# Setting up an interrupt from a payload

`setupInterruptHandling` (`payload_runtime.cpp`) checks the interrupt id,
stores the handler and makes a monitor call.  The call returns nothing, so that
the function reports what its own check has found.
-/

namespace Bmboot

/-! ## The function -/

/-- The priorities that the payload library offers. -/
inductive PayloadInterruptPriority
  | p7Max
  | p6
  | p5
  | p4
  | p3
  | p2
  | p1
  | p0Min
  deriving DecidableEq

def PayloadInterruptPriority.code : PayloadInterruptPriority → BitVec 32
  | .p7Max => 0x80
  | .p6 => 0x90
  | .p5 => 0xa0
  | .p4 => 0xb0
  | .p3 => 0xc0
  | .p2 => 0xd0
  | .p1 => 0xe0
  | .p0Min => 0xf0

theorem PayloadInterruptPriority.accepted (p : PayloadInterruptPriority) :
    PayloadPriority p.code.toInt := by
  cases p <;> decide

/-- The table `user_interrupt_handlers` of the payload, and what the monitor
can touch. -/
structure PayloadRuntime (H : Type*) where
  handlers : ℤ → H
  core : Core

/-- The registers of a monitor call with two arguments of type `int`.  The
halves of the registers that such an argument does not fill are zero; the
monitor does not look at them. -/
def intArgRegs (saved : Aarch64Regs) (functionId : BitVec 64)
    (arg1 arg2 : BitVec 32) : Aarch64Regs :=
  { saved with
    regs := Function.update (Function.update (Function.update saved.regs
      0 functionId) 1 (arg1.setWidth 64)) 2 (arg2.setWidth 64) }

/-- What `setupInterruptHandling` returns, the monitor call it makes, and the
state it leaves. -/
structure SetupResult (H : Type*) where
  returned : Bool
  smc : Option Aarch64Regs
  state : PayloadRuntime H

/-- `setupInterruptHandling`; any `int` can be a `PayloadInterruptPriority`. -/
def setupInterruptHandling {H : Type*} (cpu : DomainIndex)
    (mem : BitVec 64 → UInt8) (saved : Aarch64Regs) (s : PayloadRuntime H)
    (interruptId priority : BitVec 32) (handler : H) : SetupResult H :=
  if interruptId.toInt < gicMinUserInterruptId ∨
      interruptId.toInt > gicMaxUserInterruptId then
    { returned := false, smc := none, state := s }
  else
    let regs := intArgRegs saved smcZynqmpGicIrqConfigure interruptId priority
    { returned := true
      smc := some regs
      state :=
        { handlers := Function.update s.handlers
            (interruptId.toInt - gicMinUserInterruptId) handler
          core := (handleSmc cpu mem s.core regs).1 } }

/-! ## Agreement -/

/-- The interrupt is in group 1 and has the priority. -/
def Interrupts.ConfiguredFor (irq : Interrupts) (interruptId priority : ℤ) :
    Prop :=
  irq.gicd.inGroup1 interruptId = true ∧
    ((irq.gicd.ipriorityr interruptId).toNat : ℤ) = priority

/-- The call reports success exactly when it has made a monitor call that has
configured the interrupt, and failure only if nothing has changed. -/
structure SetupResult.Agrees {H : Type*} (r : SetupResult H)
    (s : PayloadRuntime H) (interruptId priority : ℤ) : Prop where
  success : r.returned = true ↔
    r.smc ≠ none ∧ r.state.core.irq.ConfiguredFor interruptId priority
  failure : r.returned = false → r.state = s

/-- Both sides turn the call down, or both accept it, or the interrupt is as
requested before the call. -/
def SetupRangesAgree (irq : Interrupts) (interruptId priority : ℤ) : Prop :=
  interruptId < gicMinUserInterruptId ∨ interruptId > gicMaxUserInterruptId ∨
    16 ≤ interruptId ∧ PayloadPriority priority ∨
    irq.ConfiguredFor interruptId priority

section Setup

variable {H : Type*} (cpu : DomainIndex) (mem : BitVec 64 → UInt8)
  (saved : Aarch64Regs) (s : PayloadRuntime H) (interruptId priority : BitVec 32)
  (handler : H)

theorem toCInt_setWidth (x : BitVec 32) : toCInt (x.setWidth 64) = x.toInt := by
  rw [toCInt, BitVec.truncate_eq_setWidth, BitVec.setWidth_setWidth_of_le _ (by decide),
    BitVec.setWidth_eq]

/-- The monitor's part of the call. -/
theorem handleSmc_configure :
    (handleSmc cpu mem s.core
        (intArgRegs saved smcZynqmpGicIrqConfigure interruptId priority)).1 =
      { s.core with
        irq := s.core.irq.smcConfigure cpu interruptId.toInt priority.toInt } := by
  rw [← toCInt_setWidth interruptId, ← toCInt_setWidth priority]
  rfl

/-- An interrupt is configured after the call if the monitor accepts the call,
and otherwise if it has been so before. -/
theorem configuredFor_smcConfigure
    (irq : Interrupts) {id priority : ℤ} (hid : 0 ≤ id) :
    (irq.smcConfigure cpu id priority).ConfiguredFor id priority ↔
      16 ≤ id ∧ PayloadPriority priority ∨ irq.ConfiguredFor id priority := by
  have hconfig := irq.config_smcConfigure cpu priority hid hid
  have hgroup := congrArg Interrupts.Config.inGroup1 hconfig
  have hbyte := congrArg Interrupts.Config.priority hconfig
  by_cases haccepted : PayloadPriority priority ∧ 16 ≤ id
  · rw [if_pos ⟨haccepted.1, haccepted.2, rfl⟩] at hgroup hbyte
    refine iff_of_true ⟨hgroup, ?_⟩ (.inl ⟨haccepted.2, haccepted.1⟩)
    have hword : (irq.smcConfigure cpu id priority).gicd.ipriorityr id =
        BitVec.ofInt 8 priority := hbyte
    rw [hword]
    exact haccepted.1.toNat_ofInt
  · have hrefused : ¬(PayloadPriority priority ∧ 16 ≤ id ∧ id = id) :=
      fun h => haccepted ⟨h.1, h.2.1⟩
    rw [if_neg hrefused] at hgroup hbyte
    have hsame : (irq.smcConfigure cpu id priority).ConfiguredFor id priority ↔
        irq.ConfiguredFor id priority := by
      have hgroup' : (irq.smcConfigure cpu id priority).gicd.inGroup1 id =
          irq.gicd.inGroup1 id := hgroup
      have hbyte' : (irq.smcConfigure cpu id priority).gicd.ipriorityr id =
          irq.gicd.ipriorityr id := hbyte
      rw [Interrupts.ConfiguredFor, hgroup', hbyte']
      rfl
    rw [hsame]
    exact ⟨.inr, fun h => h.resolve_left fun h => haccepted ⟨h.2, h.1⟩⟩

/-- The payload library and the monitor agree on a set-up exactly when both
turn it down, both accept it, or it changes nothing. -/
theorem setup_agrees_iff :
    (setupInterruptHandling cpu mem saved s interruptId priority
        handler).Agrees s interruptId.toInt priority.toInt ↔
      SetupRangesAgree s.core.irq interruptId.toInt priority.toInt := by
  by_cases hrange : interruptId.toInt < gicMinUserInterruptId ∨
      interruptId.toInt > gicMaxUserInterruptId
  · rw [setupInterruptHandling, if_pos hrange]
    refine iff_of_true ⟨?_, fun _ => rfl⟩ ?_
    · simp
    · rcases hrange with hlow | hhigh
      · exact .inl hlow
      · exact .inr (.inl hhigh)
  · obtain ⟨hlow, hhigh⟩ := not_or.mp hrange
    have hnonneg : 0 ≤ interruptId.toInt := Int.not_lt.mp hlow
    have hirq := congrArg Core.irq
      (handleSmc_configure cpu mem saved s interruptId priority)
    have hexact : (s.core.irq.smcConfigure cpu interruptId.toInt
        priority.toInt).ConfiguredFor interruptId.toInt priority.toInt ↔ _ :=
      configuredFor_smcConfigure cpu s.core.irq hnonneg
    rw [setupInterruptHandling, if_neg hrange, SetupRangesAgree]
    constructor
    · intro hagrees
      have hconfigured := (hagrees.success.mp rfl).2
      rw [hirq] at hconfigured
      exact .inr (.inr (hexact.mp hconfigured))
    · intro hok
      refine ⟨iff_of_true rfl ⟨nofun, ?_⟩, nofun⟩
      rw [hirq]
      exact hexact.mpr ((hok.resolve_left hlow).resolve_left hhigh)

end Setup

/-- A software-generated interrupt, which the monitor ignores. -/
theorem not_setup_agrees_sgi :
    ¬∀ (cpu : DomainIndex) (mem : BitVec 64 → UInt8) (saved : Aarch64Regs)
      (s : PayloadRuntime Unit) (interruptId : BitVec 32)
      (priority : PayloadInterruptPriority),
      (setupInterruptHandling cpu mem saved s interruptId priority.code
        ()).Agrees s interruptId.toInt priority.code.toInt := by
  intro hagrees
  let core : Core := { ipc := .zero, irq := .reset }
  let s : PayloadRuntime Unit := { handlers := fun _ => (), core := core }
  have h := hagrees .cpu1 (fun _ => 0) IpcBlock.zero.executorToManager.regs s 5
    .p7Max
  exact absurd (h.success.mp rfl).2.1 (by decide)

end Bmboot
