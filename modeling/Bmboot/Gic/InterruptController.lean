import Bmboot.Gic.Distributor
import Bmboot.Ipc

/-!
# The interrupt controller of one core

The functions of `interrupt_controller.cpp` on the interrupt hardware as one
core sees it: the distributor, the core's interface to it, the core's
inter-processor interrupt (IPI) channel and the exception mask of EL3.
-/

namespace Bmboot

/-! ## Inter-processor interrupts -/

inductive IpiChannel
  | ch0
  | ch1
  | ch2
  | ch7
  | ch8
  | ch9
  | ch10
  deriving DecidableEq, Repr

def getIpiPeerMask : IpiChannel → BitVec 32
  | .ch0 => 0x00000001
  | .ch1 => 0x00000100
  | .ch2 => 0x00000200
  | .ch7 => 0x01000000
  | .ch8 => 0x02000000
  | .ch9 => 0x04000000
  | .ch10 => 0x08000000

def getInterruptIdForIpi : IpiChannel → ℤ
  | .ch0 => 67
  | .ch1 => 65
  | .ch2 => 66
  | .ch7 => 61
  | .ch8 => 62
  | .ch9 => 63
  | .ch10 => 64

/-- The channel from which the manager sends. -/
def ipiSrcBmbootManager : IpiChannel := .ch0

/-- The value of `getCpuIndex` on the core of a domain. -/
def DomainIndex.cpuIndex : DomainIndex → ℕ
  | .cpu1 => 1
  | .cpu2 => 2
  | .cpu3 => 3

def getIpiChannelForCpu : DomainIndex → IpiChannel
  | .cpu1 => .ch0
  | .cpu2 => .ch7
  | .cpu3 => .ch8

/-- The interrupt by which the core is asked to kill its payload. -/
def DomainIndex.ipiInterruptId (cpu : DomainIndex) : ℤ :=
  getInterruptIdForIpi (getIpiChannelForCpu cpu)

/-! ## The hardware -/

/-- The CPU interface (`GICC`). -/
structure Gicc where
  ctrl : BitVec 32
  pmr : BitVec 32
  bpr : BitVec 32
  nsapr0 : BitVec 32

/-- The core's IPI channel: the status register and what has been enabled
through `IER`. -/
structure Ipi where
  isr : BitVec 32
  enabled : BitVec 32

/-- What one core sees of the interrupt hardware, with the monitor's record of
the interrupts routed to EL1. -/
structure Interrupts where
  gicd : Gicd
  gicc : Gicc
  ipi : Ipi
  interruptRoutedToEl1 : ℤ → Bool
  daif : BitVec 64

/-- The hardware after power-on, all registers zero and exceptions masked. -/
def Interrupts.reset : Interrupts where
  gicd :=
    { igroupr := fun _ => 0, enabler := fun _ => 0, pendr := fun _ => 0
      activer := fun _ => 0, ipriorityr := fun _ => 0
      itargetsr := fun _ => 0, icfgr := fun _ => 0 }
  gicc := { ctrl := 0, pmr := 0, bpr := 0, nsapr0 := 0 }
  ipi := { isr := 0, enabled := 0 }
  interruptRoutedToEl1 := fun _ => false
  daif := 0x3c0

def daifFMask : BitVec 64 := 1 <<< 6
def daifIMask : BitVec 64 := 1 <<< 7

/-- All exceptions masked, as on taking one. -/
def daifAllMasked : BitVec 64 := 0x3c0

/-- `FIQEn | AckCtl | EnableGrp1 | EnableGrp0`. -/
def gicCtrlValue : BitVec 32 :=
  (1 <<< 3) ||| (1 <<< 2) ||| (1 <<< 1) ||| (1 <<< 0)

/-- The timer interrupt of the payload. -/
def cntpnsInterruptId : ℤ := 30

def gicMinUserInterruptId : ℤ := 0
def gicMaxUserInterruptId : ℤ := 187

inductive InterruptGroup
  | group0FiqEl3
  | group1IrqEl1
  deriving DecidableEq, Repr

inductive InterruptTrigger
  | unchanged
  | level
  | edge
  deriving DecidableEq, Repr

/-- `MonitorInterruptPriority::m7_max`. -/
def priorityM7Max : ℤ := 0x00

def payloadMinPriorityValue : ℤ := 0x80
def payloadMaxPriorityValue : ℤ := 0xf0

namespace Interrupts

/-! ## Configuration -/

def enableCpuInterrupts (irq : Interrupts) : Interrupts :=
  { irq with
    gicc := { irq.gicc with bpr := 0x03, pmr := 0xff, ctrl := gicCtrlValue }
    daif := irq.daif &&& ~~~daifIMask &&& ~~~daifFMask }

/-- The record kept for `teardownEl1Interrupts`, for ids in its range. -/
def recordRouting (irq : Interrupts) (id : ℤ) (group : InterruptGroup) :
    Interrupts :=
  if id ≥ gicMinUserInterruptId ∧ id ≤ gicMaxUserInterruptId then
    { irq with
      interruptRoutedToEl1 :=
        Function.update irq.interruptRoutedToEl1 (id - gicMinUserInterruptId)
          (group = .group1IrqEl1) }
  else irq

def setGroupForInterruptChannel (irq : Interrupts) (id : ℤ)
    (group : InterruptGroup) : Interrupts :=
  let gicd :=
    match group with
    | .group0FiqEl3 => irq.gicd.setGroup id 0
    | .group1IrqEl1 => irq.gicd.setGroup id 1
  { irq with gicd := gicd }.recordRouting id group

section Frame

variable (irq : Interrupts) (id : ℤ) (group : InterruptGroup)

@[simp] theorem recordRouting_gicd :
    (irq.recordRouting id group).gicd = irq.gicd := by
  unfold recordRouting
  split <;> rfl

@[simp] theorem setGroupForInterruptChannel_gicd :
    (irq.setGroupForInterruptChannel id group).gicd =
      irq.gicd.setGroup id (if group = .group0FiqEl3 then 0 else 1) := by
  cases group <;> simp [setGroupForInterruptChannel]

end Frame

def configurePrivatePeripheralInterrupt (irq : Interrupts) (ch : ℤ)
    (group : InterruptGroup) (priority : ℤ) : Interrupts :=
  let irq := irq.setGroupForInterruptChannel ch group
  { irq with gicd := irq.gicd.writePriority ch (BitVec.ofInt 8 priority) }

def setTrigger (d : Gicd) (ch : ℤ) : InterruptTrigger → Gicd
  | .unchanged => d
  | .level => d.setTriggerLevel ch
  | .edge => d.setTriggerEdge ch

def configureSharedPeripheralInterruptAndRouteToCpu (irq : Interrupts)
    (ch : ℤ) (trigger : InterruptTrigger) (targetCpu : ℕ)
    (group : InterruptGroup) (priority : ℤ) : Interrupts :=
  let irq := irq.setGroupForInterruptChannel ch group
  let d := irq.gicd.writePriority ch (BitVec.ofInt 8 priority)
  let d := d.writeTargets ch (1#8 <<< targetCpu)
  { irq with gicd := setTrigger d ch trigger }

def disableInterrupt (irq : Interrupts) (id : ℤ) : Interrupts :=
  { irq with gicd := irq.gicd.clearEnable id }

/-- The pending and active states are cleared first: a payload may have been
killed while it handled the interrupt. -/
def enableInterrupt (irq : Interrupts) (id : ℤ) : Interrupts :=
  { irq with gicd := ((irq.gicd.clearPending id).clearActive id).setEnable id }

/-- A write to `ISR` clears the bits written. -/
def writeIsr (irq : Interrupts) (mask : BitVec 32) : Interrupts :=
  { irq with ipi := { irq.ipi with isr := irq.ipi.isr &&& ~~~mask } }

/-- A write to `IER` enables the bits written. -/
def writeIer (irq : Interrupts) (mask : BitVec 32) : Interrupts :=
  { irq with ipi := { irq.ipi with enabled := irq.ipi.enabled ||| mask } }

def enableIpiReception (irq : Interrupts) (src : IpiChannel) : Interrupts :=
  (irq.writeIsr (getIpiPeerMask src)).writeIer (getIpiPeerMask src)

def setupInterrupts (cpu : DomainIndex) (irq : Interrupts) : Interrupts :=
  let irq := irq.enableCpuInterrupts
  let irq := irq.configureSharedPeripheralInterruptAndRouteToCpu
    cpu.ipiInterruptId .unchanged cpu.cpuIndex .group0FiqEl3 priorityM7Max
  let irq := irq.enableInterrupt cpu.ipiInterruptId
  irq.enableIpiReception ipiSrcBmbootManager

/-- One round of the loop of `teardownEl1Interrupts`. -/
def teardownInterrupt (irq : Interrupts) (id : ℤ) : Interrupts :=
  if irq.interruptRoutedToEl1 (id - gicMinUserInterruptId) then
    let irq := irq.disableInterrupt id
    { irq with
      interruptRoutedToEl1 :=
        Function.update irq.interruptRoutedToEl1 (id - gicMinUserInterruptId)
          false }
  else irq

/-- The loop of `teardownEl1Interrupts` with `n` rounds to go. -/
def teardownLoop : ℕ → ℤ → Interrupts → Interrupts
  | 0, _, irq => irq
  | n + 1, id, irq => teardownLoop n (id + 1) (irq.teardownInterrupt id)

def clearNsapr0 (irq : Interrupts) : Interrupts :=
  { irq with gicc := { irq.gicc with nsapr0 := 0 } }

def teardownEl1Interrupts (irq : Interrupts) : Interrupts :=
  teardownLoop (gicMaxUserInterruptId - gicMinUserInterruptId + 1).toNat
    gicMinUserInterruptId
    (irq.disableInterrupt cntpnsInterruptId).clearNsapr0

/-! ## The kill interrupt -/

/-- The bit of the channel's `ISR` that the manager sets. -/
def killMask : BitVec 32 := getIpiPeerMask ipiSrcBmbootManager

/-- A kill request that the monitor has not picked up yet. -/
def killPending (irq : Interrupts) : Bool :=
  irq.ipi.isr &&& killMask ≠ 0

/-- The IPI interrupt is configured as `setupInterrupts` leaves it. -/
structure IpiConfigured (cpu : DomainIndex) (irq : Interrupts) : Prop where
  enabled : irq.gicd.enabled cpu.ipiInterruptId = true
  group : irq.gicd.inGroup1 cpu.ipiInterruptId = false
  target : irq.gicd.itargetsr cpu.ipiInterruptId = 1#8 <<< cpu.cpuIndex
  priority : irq.gicd.ipriorityr cpu.ipiInterruptId = 0x00

end Interrupts

end Bmboot
