import Bmboot.Gic.InterruptController
import Bmboot.Stdout.Ring

/-!
# The secure monitor calls of a payload

`handleSmc` and `reportCrash` (`smc_handlers.cpp`) on what a monitor call can
touch: the inter-process communication block and the interrupt hardware of the
core.
-/

namespace Bmboot

/-! ## Crash reports -/

inductive CrashingEntity
  | monitor
  | payload
  deriving DecidableEq, Repr

/-- `strncpy`: copy up to the terminator, then pad with zeros. -/
def strncpy : ℕ → (ℕ → UInt8) → List UInt8
  | 0, _ => []
  | n + 1, src =>
      if src 0 = 0 then List.replicate (n + 1) 0
      else src 0 :: strncpy n fun i => src (i + 1)

theorem length_strncpy (n : ℕ) (src : ℕ → UInt8) :
    (strncpy n src).length = n := by
  induction n generalizing src with
  | zero => rfl
  | succ n ih =>
      rw [strncpy]
      split
      · simp
      · simp [ih]

/-- A string without NUL is cut, or padded with zeros. -/
theorem strncpy_eq_append {text : List UInt8} (h : 0 ∉ text) (n : ℕ) :
    strncpy n (fun i => text.getD i 0) =
      text.take n ++ List.replicate (n - text.length) 0 := by
  induction n generalizing text with
  | zero => simp [strncpy]
  | succ n ih =>
      cases text with
      | nil => simp [strncpy]
      | cons b text =>
          rw [List.mem_cons, not_or] at h
          obtain ⟨hb, htext⟩ := h
          rw [strncpy, if_neg]
          · simpa using ih htext
          · exact Ne.symm hb

/-- A string literal as its terminated bytes. -/
def cString (text : String) (i : ℕ) : UInt8 :=
  text.toUTF8.toList.getD i 0

/-- The value of `CurrentEL` in the monitor. -/
def currentEl3 : BitVec 32 := 3 <<< 2

def IpcBlock.setState (ipc : IpcBlock) (st : DomainState) : IpcBlock :=
  { ipc with
    executorToManager := { ipc.executorToManager with state := st.code } }

def IpcBlock.reportPayloadStarted (ipc : IpcBlock) : IpcBlock :=
  ipc.setState .runningPayload

def IpcBlock.reportCrash (ipc : IpcBlock) (who : CrashingEntity)
    (desc : ℕ → UInt8) (address : BitVec 64) : IpcBlock :=
  { ipc with
    executorToManager :=
      { ipc.executorToManager with
        faultPc := address
        faultEl := currentEl3
        faultDesc := strncpy 32 desc
        state :=
          match who with
          | .payload => DomainState.crashedPayload.code
          | .monitor => DomainState.crashedMonitor.code } }

/-! ## The calls -/

def smcGetAbiVersion : BitVec 64 := 0xf2000000
def smcNotifyPayloadStarted : BitVec 64 := 0xf2000001
def smcNotifyPayloadCrashed : BitVec 64 := 0xf2000002
def smcWriteStdout : BitVec 64 := 0xf2000003
def smcZynqmpGicIrqConfigure : BitVec 64 := 0xf2000080
def smcZynqmpGicIrqEnable : BitVec 64 := 0xf2000081
def smcZynqmpGicIrqDisable : BitVec 64 := 0xf2000082

def abiMajor : ℕ := 2
def abiMinor : ℕ := 0

/-- The conversion of a register to `int`. -/
def toCInt (x : BitVec 64) : ℤ := (x.truncate 32).toInt

/-- The part of the system that a monitor call can touch. -/
structure Core where
  ipc : IpcBlock
  irq : Interrupts

def Aarch64Regs.setX0 (r : Aarch64Regs) (x : BitVec 64) : Aarch64Regs :=
  { r with regs := Function.update r.regs 0 x }

/-- The bytes `[address, address + size)`. -/
def readBytes (mem : BitVec 64 → UInt8) (address : BitVec 64) (size : ℕ) :
    List UInt8 :=
  (List.range size).map fun i => mem (address + BitVec.ofNat 64 i)

/-- The block that the byte loop of `writeToStdout` begins with. -/
def IpcBlock.stdoutRepaired (ipc : IpcBlock) : IpcBlock :=
  if ipc.executorToManager.stdoutWrpos ≥ stdoutBufSize then
    (writeLoop (ipc.setStdoutWrpos 0) 0 wrposResetMessage).1
  else ipc

/-- Two levels of calls are enough: the message about a reset position is
written at position zero. -/
theorem writeToStdout_two (ipc : IpcBlock) (data : List UInt8) :
    writeToStdout 2 ipc data =
      some ((writeLoop ipc.stdoutRepaired 0 data).1,
        BitVec.ofNat 32 (writeLoop ipc.stdoutRepaired 0 data).2) := by
  have hzero : ¬(ipc.setStdoutWrpos 0).executorToManager.stdoutWrpos ≥
      stdoutBufSize := Nat.not_le.mpr (Nat.zero_lt_succ 1023)
  have hmessage : writeToStdout 1 (ipc.setStdoutWrpos 0) wrposResetMessage =
      some ((writeLoop (ipc.setStdoutWrpos 0) 0 wrposResetMessage).1,
        BitVec.ofNat 32
          (writeLoop (ipc.setStdoutWrpos 0) 0 wrposResetMessage).2) := by
    rw [writeToStdout, if_neg hzero]
    rfl
  rw [writeToStdout, IpcBlock.stdoutRepaired]
  split_ifs
  · rw [hmessage]
    rfl
  · rfl

/-- The priorities a payload may ask for. -/
def PayloadPriority (p : ℤ) : Prop :=
  payloadMinPriorityValue ≤ p ∧ p ≤ payloadMaxPriorityValue

instance (p : ℤ) : Decidable (PayloadPriority p) :=
  inferInstanceAs (Decidable (_ ∧ _))

theorem payloadPriority_iff {p : ℤ} : PayloadPriority p ↔ 128 ≤ p ∧ p ≤ 240 :=
  Iff.rfl

/-- The test that the monitor makes. -/
theorem not_payloadPriority_iff {p : ℤ} :
    ¬PayloadPriority p ↔
      p < payloadMinPriorityValue ∨ p > payloadMaxPriorityValue := by
  rw [PayloadPriority, not_and_or, Int.not_le, Int.not_le]

/-- Such a priority fits in its byte of the distributor. -/
theorem PayloadPriority.toNat_ofInt {p : ℤ} (hp : PayloadPriority p) :
    ((BitVec.ofInt 8 p).toNat : ℤ) = p := by
  obtain ⟨hmin, hmax⟩ := payloadPriority_iff.mp hp
  rw [BitVec.toNat_ofInt]
  omega

/-- The call `SMC_ZYNQMP_GIC_IRQ_CONFIGURE`; ids below 16 are ignored. -/
def Interrupts.smcConfigure (cpu : DomainIndex) (irq : Interrupts)
    (interruptId requestedPriority : ℤ) : Interrupts :=
  if requestedPriority < payloadMinPriorityValue ∨
      requestedPriority > payloadMaxPriorityValue then
    irq
  else if interruptId ≥ 16 ∧ interruptId < 32 then
    irq.configurePrivatePeripheralInterrupt interruptId .group1IrqEl1
      requestedPriority
  else if interruptId ≥ 32 then
    irq.configureSharedPeripheralInterruptAndRouteToCpu interruptId .edge
      cpu.cpuIndex .group1IrqEl1 requestedPriority
  else irq

/-- `handleSmc`, with the memory a pointer argument refers to.  The saved
registers it returns with are `none` when it never returns. -/
def handleSmc (cpu : DomainIndex) (mem : BitVec 64 → UInt8) (core : Core)
    (saved : Aarch64Regs) : Core × Option Aarch64Regs :=
  let x0 := saved.regs 0
  let x1 := saved.regs 1
  let x2 := saved.regs 2
  if x0 = smcGetAbiVersion then
    (core, some (saved.setX0 (BitVec.ofNat 64 ((abiMajor <<< 8) ||| abiMinor))))
  else if x0 = smcNotifyPayloadStarted then
    ({ core with ipc := core.ipc.reportPayloadStarted }, some saved)
  else if x0 = smcNotifyPayloadCrashed then
    let desc := fun i => mem (x1 + BitVec.ofNat 64 i)
    ({ core with ipc := core.ipc.reportCrash .payload desc x2 }, some saved)
  else if x0 = smcWriteStdout then
    match writeToStdout 2 core.ipc (readBytes mem x1 x2.toNat) with
    | some (ipc, count) =>
        ({ core with ipc := ipc }, some (saved.setX0 (count.signExtend 64)))
    | none => (core, none)
  else if x0 = smcZynqmpGicIrqConfigure then
    ({ core with irq := core.irq.smcConfigure cpu (toCInt x1) (toCInt x2) },
      some saved)
  else if x0 = smcZynqmpGicIrqDisable then
    ({ core with irq := core.irq.disableInterrupt (toCInt x1) }, some saved)
  else if x0 = smcZynqmpGicIrqEnable then
    ({ core with irq := core.irq.enableInterrupt (toCInt x1) }, some saved)
  else
    ({ core with
        ipc := core.ipc.reportCrash .monitor (cString "Unhandled SMC") x0 },
      none)

end Bmboot
