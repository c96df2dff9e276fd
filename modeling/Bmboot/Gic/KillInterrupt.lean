import Bmboot.Gic.InterruptController
import Bmboot.Lib.Routine

/-!
# Taking the kill interrupt, one register access at a time

`FIQInterrupt` (`vectors_el3.cpp`) with `teardownEl1Interrupts`, and
`setupInterrupts`, as routines whose steps are single accesses to a register
or to the monitor's record of routed interrupts.  The inter-processor
interrupt is level-sensitive: its line is asserted as long as an enabled bit
of the channel's `ISR` is set.
-/

namespace Bmboot

namespace Interrupts

/-! ## Signalling -/

/-- The manager has one bit of the channel. -/
theorem eq_zero_or_killMask {isr : BitVec 32} (h : isr &&& ~~~killMask = 0) :
    isr = 0 ∨ isr = killMask := by
  have hbit : ∀ i, i ≠ 0 → isr.getLsbD i = false := by
    intro i hi
    by_cases hlt : i < 32
    · have hone : killMask.getLsbD i = false := by
        have hmask : killMask = 1 := rfl
        rw [hmask]
        simp [BitVec.getLsbD_one, hi]
      have hand : (isr &&& ~~~killMask).getLsbD i =
          (0 : BitVec 32).getLsbD i := by
        rw [h]
      rw [BitVec.getLsbD_and, BitVec.getLsbD_not, hone] at hand
      simpa [hlt] using hand
    · exact BitVec.getLsbD_of_ge isr i (by omega)
  by_cases hzero : isr.getLsbD 0 = true
  · have hmask : killMask = 1 := rfl
    rw [hmask]
    refine .inr (BitVec.eq_of_getLsbD_eq fun i hi => ?_)
    by_cases h0 : i = 0
    · simp [h0, hzero]
    · simp [h0, hbit i h0]
  · refine .inl (BitVec.eq_of_getLsbD_eq fun i hi => ?_)
    by_cases h0 : i = 0
    · simpa [h0] using hzero
    · simp [hbit i h0]

/-- The interrupt line of the core's IPI channel. -/
def ipiLine (irq : Interrupts) : Bool :=
  irq.ipi.isr &&& irq.ipi.enabled ≠ 0

/-- The interrupt controller asserts FIQ for the IPI interrupt. -/
def fiqSignalled (cpu : DomainIndex) (irq : Interrupts) : Bool :=
  irq.ipiLine &&
  irq.gicd.enabled cpu.ipiInterruptId &&
  !irq.gicd.inGroup1 cpu.ipiInterruptId &&
  !irq.gicd.active cpu.ipiInterruptId &&
  irq.gicd.targets cpu.ipiInterruptId cpu.cpuIndex &&
  decide ((irq.gicd.ipriorityr cpu.ipiInterruptId).toNat < irq.gicc.pmr.toNat) &&
  irq.gicc.ctrl.getLsbD 0 &&
  irq.gicc.ctrl.getLsbD 3

def fiqMasked (irq : Interrupts) : Bool :=
  irq.daif &&& daifFMask ≠ 0

def maskAll (irq : Interrupts) : Interrupts :=
  { irq with daif := daifAllMasked }

@[simp] theorem fiqMasked_maskAll (irq : Interrupts) :
    irq.maskAll.fiqMasked = true := by
  have hmasked : daifAllMasked &&& daifFMask ≠ 0 := by decide
  exact decide_eq_true hmasked

/-- Exceptions are unmasked on entering EL1: `SPSR_EL3` is `0b00101`. -/
def unmaskAll (irq : Interrupts) : Interrupts :=
  { irq with daif := 0 }

/-- What `IAR` reads when no interrupt is signalled. -/
def spuriousInterruptId : BitVec 32 := 1023

def iarInterruptIdMask : BitVec 32 := 0x3ff

/-- A read of `IAR` makes the signalled interrupt active. -/
def readIar (cpu : DomainIndex) (irq : Interrupts) : Interrupts × BitVec 32 :=
  if irq.fiqSignalled cpu then
    ({ irq with
        gicd :=
          { irq.gicd with
            activer := RegisterBank.setMask irq.gicd.activer
              (cpu.ipiInterruptId.tdiv 32)
              (Gicd.interruptMask cpu.ipiInterruptId) } },
      BitVec.ofInt 32 cpu.ipiInterruptId)
  else (irq, spuriousInterruptId)

/-- A write to `EOIR` makes the interrupt inactive. -/
def writeEoir (irq : Interrupts) (iar : BitVec 32) : Interrupts :=
  { irq with
    gicd := irq.gicd.clearActive ((iar &&& iarInterruptIdMask).toNat : ℤ) }

/-- A kill request arrives at the channel. -/
def raiseKill (irq : Interrupts) : Interrupts :=
  { irq with ipi := { irq.ipi with isr := irq.ipi.isr ||| killMask } }

end Interrupts

open Interrupts Routine

/-! ## Setup -/

/-- The accesses of `setupInterrupts`. -/
inductive SetupPc
  | writeBpr
  | writePmr
  | writeCtrl
  | readDaif
  | writeDaif (daif : BitVec 64)
  | readGroup
  | writeGroup (word : BitVec 32)
  | recordRouting
  | writePriority
  | writeTargets
  | clearPending
  | clearActive
  | setEnable
  | writeIsr
  | writeIer
  deriving DecidableEq

def SetupPc.step (cpu : DomainIndex) (irq : Interrupts) :
    SetupPc → Interrupts × Next SetupPc Unit
  | .writeBpr =>
      ({ irq with gicc := { irq.gicc with bpr := 0x03 } }, .goto .writePmr)
  | .writePmr =>
      ({ irq with gicc := { irq.gicc with pmr := 0xff } }, .goto .writeCtrl)
  | .writeCtrl =>
      ({ irq with gicc := { irq.gicc with ctrl := gicCtrlValue } },
        .goto .readDaif)
  | .readDaif => (irq, .goto (.writeDaif irq.daif))
  | .writeDaif daif =>
      ({ irq with daif := daif &&& ~~~daifIMask &&& ~~~daifFMask },
        .goto .readGroup)
  | .readGroup =>
      (irq,
        .goto (.writeGroup (irq.gicd.igroupr (cpu.ipiInterruptId.tdiv 32))))
  | .writeGroup word =>
      ({ irq with
          gicd :=
            { irq.gicd with
              igroupr := Function.update irq.gicd.igroupr
                (cpu.ipiInterruptId.tdiv 32)
                (Gicd.groupWord word cpu.ipiInterruptId 0) } },
        .goto .recordRouting)
  | .recordRouting =>
      (irq.recordRouting cpu.ipiInterruptId .group0FiqEl3, .goto .writePriority)
  | .writePriority =>
      ({ irq with
          gicd := irq.gicd.writePriority cpu.ipiInterruptId
            (BitVec.ofInt 8 priorityM7Max) },
        .goto .writeTargets)
  | .writeTargets =>
      ({ irq with
          gicd := irq.gicd.writeTargets cpu.ipiInterruptId
            (1#8 <<< cpu.cpuIndex) },
        .goto .clearPending)
  | .clearPending =>
      ({ irq with gicd := irq.gicd.clearPending cpu.ipiInterruptId },
        .goto .clearActive)
  | .clearActive =>
      ({ irq with gicd := irq.gicd.clearActive cpu.ipiInterruptId },
        .goto .setEnable)
  | .setEnable =>
      ({ irq with gicd := irq.gicd.setEnable cpu.ipiInterruptId },
        .goto .writeIsr)
  | .writeIsr =>
      (irq.writeIsr (getIpiPeerMask ipiSrcBmbootManager), .goto .writeIer)
  | .writeIer => (irq.writeIer (getIpiPeerMask ipiSrcBmbootManager), .ret ())

/-- Undisturbed, the accesses add up to `setupInterrupts`. -/
theorem setup_completes (cpu : DomainIndex) (irq : Interrupts) :
    Completes (SetupPc.step cpu) irq .writeBpr (setupInterrupts cpu irq) () := by
  iterate 14 refine .goto rfl ?_
  refine .ret ?_
  cases cpu <;> rfl

/-! ## Teardown -/

/-- The accesses of `teardownEl1Interrupts`; a round of its loop accesses the
distributor at most once. -/
inductive TeardownPc
  | disableTimer
  | clearNsapr0
  | loop (id : ℤ)
  deriving DecidableEq

def TeardownPc.step (irq : Interrupts) :
    TeardownPc → Interrupts × Next TeardownPc Unit
  | .disableTimer => (irq.disableInterrupt cntpnsInterruptId, .goto .clearNsapr0)
  | .clearNsapr0 => (irq.clearNsapr0, .goto (.loop gicMinUserInterruptId))
  | .loop id =>
      if id ≤ gicMaxUserInterruptId then
        (irq.teardownInterrupt id, .goto (.loop (id + 1)))
      else (irq, .ret ())

theorem teardown_loop_completes (n : ℕ) (id : ℤ) (irq : Interrupts)
    (hn : id + n = gicMaxUserInterruptId + 1) :
    Completes TeardownPc.step irq (.loop id) (teardownLoop n id irq) () := by
  induction n generalizing id irq with
  | zero =>
      have hdone : ¬id ≤ gicMaxUserInterruptId := by omega
      exact .ret (by simp [TeardownPc.step, hdone, teardownLoop])
  | succ n ih =>
      have hmore : id ≤ gicMaxUserInterruptId := by omega
      have hstep : TeardownPc.step irq (.loop id) =
          (irq.teardownInterrupt id, .goto (.loop (id + 1))) := by
        simp [TeardownPc.step, hmore]
      exact .goto hstep (ih (id + 1) (irq.teardownInterrupt id) (by omega))

/-- Undisturbed, the accesses add up to `teardownEl1Interrupts`. -/
theorem teardown_completes (irq : Interrupts) :
    Completes TeardownPc.step irq .disableTimer (teardownEl1Interrupts irq)
      () := by
  refine .goto rfl (.goto rfl ?_)
  exact teardown_loop_completes _ _ _ (by decide)

/-! ## The handler -/

/-- How `FIQInterrupt` ends: it jumps to `_boot`, or it reports a crash and
hangs. -/
inductive FiqOutcome
  | boot
  | crash (iar : BitVec 32)

/-- The accesses of `FIQInterrupt`. -/
inductive FiqPc
  | readIar
  | readIsr (iar : BitVec 32)
  | writeIsr (iar sourceMask : BitVec 32)
  | writeEoir (iar sourceMask : BitVec 32)
  | teardown (pc : TeardownPc)
  deriving DecidableEq

def FiqPc.step (cpu : DomainIndex) (irq : Interrupts) :
    FiqPc → Interrupts × Next FiqPc FiqOutcome
  | .readIar =>
      let (irq, iar) := irq.readIar cpu
      if ((iar &&& iarInterruptIdMask).toNat : ℤ) = cpu.ipiInterruptId then
        (irq, .goto (.readIsr iar))
      else (irq, .ret (.crash iar))
  | .readIsr iar => (irq, .goto (.writeIsr iar irq.ipi.isr))
  | .writeIsr iar sourceMask =>
      (irq.writeIsr sourceMask, .goto (.writeEoir iar sourceMask))
  | .writeEoir iar sourceMask =>
      (irq.writeEoir iar,
        if sourceMask &&& getIpiPeerMask ipiSrcBmbootManager ≠ 0 then
          .goto (.teardown .disableTimer)
        else .ret (.crash iar))
  | .teardown pc =>
      match TeardownPc.step irq pc with
      | (irq, .goto pc) => (irq, .goto (.teardown pc))
      | (irq, .ret ()) => (irq, .ret .boot)

end Bmboot
