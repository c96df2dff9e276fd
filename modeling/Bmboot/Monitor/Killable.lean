import Bmboot.Gic.KillInterrupt
import Bmboot.Gic.OneInterrupt
import Bmboot.Monitor.Smc
import Mathlib.Data.List.Induction

/-!
# The kill interrupt under a payload's monitor calls

The id of the interrupt that kills a payload lies in the range of ids a payload
may configure.  Of the seven monitor calls only two can change how it is
configured, and only when they name it.
-/

namespace Bmboot

/-! ## What the configuration functions do to an interrupt -/

theorem DomainIndex.ipiInterruptId_nonneg (cpu : DomainIndex) :
    0 ≤ cpu.ipiInterruptId := by
  cases cpu <;> decide

theorem DomainIndex.ipiInterruptId_ge (cpu : DomainIndex) :
    32 ≤ cpu.ipiInterruptId := by
  cases cpu <;> decide

namespace Interrupts

/-- What makes up the configuration of one interrupt. -/
structure Config where
  enabled : Bool
  inGroup1 : Bool
  targets : BitVec 8
  priority : BitVec 8

def config (irq : Interrupts) (id : ℤ) : Config where
  enabled := irq.gicd.enabled id
  inGroup1 := irq.gicd.inGroup1 id
  targets := irq.gicd.itargetsr id
  priority := irq.gicd.ipriorityr id

variable (cpu : DomainIndex) (irq : Interrupts) {id id' : ℤ}

theorem config_disableInterrupt (h : 0 ≤ id) (h' : 0 ≤ id') :
    (irq.disableInterrupt id).config id' =
      { irq.config id' with
        enabled := irq.gicd.enabled id' && !decide (id' = id) } := by
  have henabled := irq.gicd.enabled_clearEnable h h'
  rw [← henabled]
  rfl

theorem config_enableInterrupt (h : 0 ≤ id) (h' : 0 ≤ id') :
    (irq.enableInterrupt id).config id' =
      { irq.config id' with
        enabled := irq.gicd.enabled id' || decide (id' = id) } := by
  have henabled := Gicd.enabled_setEnable
    ((irq.gicd.clearPending id).clearActive id) h h'
  have hsame : ((irq.gicd.clearPending id).clearActive id).enabled id' =
      irq.gicd.enabled id' := rfl
  rw [← hsame, ← henabled]
  rfl

/-- The group field written for an interrupt group. -/
def groupCode (group : InterruptGroup) : ℤ :=
  if group = .group0FiqEl3 then 0 else 1

theorem groupCode_ne_zero (group : InterruptGroup) :
    decide (groupCode group ≠ 0) = decide (group ≠ .group0FiqEl3) := by
  cases group <;> rfl

theorem config_configurePrivatePeripheralInterrupt
    (group : InterruptGroup) (priority : ℤ) (h : 0 ≤ id) (h' : 0 ≤ id') :
    (irq.configurePrivatePeripheralInterrupt id group priority).config id' =
      if id' = id then
        { irq.config id' with
          inGroup1 := group ≠ .group0FiqEl3
          priority := BitVec.ofInt 8 priority }
      else irq.config id' := by
  have hgicd :
      (irq.configurePrivatePeripheralInterrupt id group priority).gicd =
        (irq.gicd.setGroup id (groupCode group)).writePriority id
          (BitVec.ofInt 8 priority) := by
    simp [configurePrivatePeripheralInterrupt, groupCode]
  have hgroup : ((irq.gicd.setGroup id (groupCode group)).writePriority id
      (BitVec.ofInt 8 priority)).inGroup1 id' = _ :=
    irq.gicd.inGroup1_setGroup (groupCode group) h h'
  rw [config, hgicd, hgroup, groupCode_ne_zero]
  by_cases hid : id' = id
  · subst hid
    simp only [if_true, Gicd.writePriority, Function.update_self]
    rfl
  · simp only [hid, if_false, Gicd.writePriority, Function.update_of_ne hid]
    rfl

theorem config_configureSharedPeripheralInterruptAndRouteToCpu
    (trigger : InterruptTrigger) (target : ℕ)
    (group : InterruptGroup) (priority : ℤ) (h : 0 ≤ id) (h' : 0 ≤ id') :
    (irq.configureSharedPeripheralInterruptAndRouteToCpu id trigger target
        group priority).config id' =
      if id' = id then
        { irq.config id' with
          inGroup1 := group ≠ .group0FiqEl3
          targets := 1#8 <<< target
          priority := BitVec.ofInt 8 priority }
      else irq.config id' := by
  have hgroup := irq.gicd.inGroup1_setGroup (groupCode group) h h'
  rw [groupCode_ne_zero] at hgroup
  have hconfig :
      (irq.configureSharedPeripheralInterruptAndRouteToCpu id trigger target
        group priority).config id' =
      { enabled := irq.gicd.enabled id'
        inGroup1 := (irq.gicd.setGroup id (groupCode group)).inGroup1 id'
        targets := Function.update irq.gicd.itargetsr id (1#8 <<< target) id'
        priority := Function.update irq.gicd.ipriorityr id
          (BitVec.ofInt 8 priority) id' } := by
    cases trigger <;>
      simp [config, configureSharedPeripheralInterruptAndRouteToCpu,
        setTrigger, groupCode] <;>
      exact ⟨rfl, rfl, rfl, rfl⟩
  rw [hconfig, hgroup]
  by_cases hid : id' = id
  · subst hid
    simp only [if_true, Function.update_self]
    rfl
  · simp only [hid, if_false, Function.update_of_ne hid]
    rfl

/-- The configuration after `SMC_ZYNQMP_GIC_IRQ_CONFIGURE`. -/
theorem config_smcConfigure
    (priority : ℤ) (h : 0 ≤ id) (h' : 0 ≤ id') :
    (irq.smcConfigure cpu id priority).config id' =
      if PayloadPriority priority ∧ 16 ≤ id ∧ id' = id then
        { irq.config id' with
          inGroup1 := true
          targets :=
            if 32 ≤ id then 1#8 <<< cpu.cpuIndex else irq.gicd.itargetsr id'
          priority := BitVec.ofInt 8 priority }
      else irq.config id' := by
  by_cases hp : PayloadPriority priority
  · rw [smcConfigure, if_neg fun h => not_payloadPriority_iff.mpr h hp]
    by_cases hppi : id ≥ 16 ∧ id < 32
    · rw [if_pos hppi, config_configurePrivatePeripheralInterrupt _ _ _ h h']
      have hspi : ¬32 ≤ id := by omega
      by_cases hid : id' = id
      · simp [hid, hp, hppi, hspi, config]
      · simp [hid]
    · rw [if_neg hppi]
      by_cases hspi : id ≥ 32
      · rw [if_pos hspi,
          config_configureSharedPeripheralInterruptAndRouteToCpu _ _ _ _ _ h h']
        have hge : 16 ≤ id := by omega
        by_cases hid : id' = id
        · simp [hid, hp, hspi, hge]
        · simp [hid]
      · have hlt : ¬16 ≤ id := by omega
        rw [if_neg hspi, if_neg fun hall => hlt hall.2.1]
  · rw [smcConfigure, if_pos (not_payloadPriority_iff.mp hp),
      if_neg fun hall => hp hall.1]

/-- The CPU interface, the IPI channel, the exception mask and the active
interrupts are the same. -/
structure SameInterface (irq irq' : Interrupts) : Prop where
  gicc : irq'.gicc = irq.gicc
  ipi : irq'.ipi = irq.ipi
  daif : irq'.daif = irq.daif
  activer : irq'.gicd.activer = irq.gicd.activer

theorem recordRouting_sameInterface (id : ℤ) (group : InterruptGroup) :
    SameInterface irq (irq.recordRouting id group) := by
  unfold recordRouting
  split <;> exact ⟨rfl, rfl, rfl, rfl⟩

theorem setGroupForInterruptChannel_sameInterface (id : ℤ)
    (group : InterruptGroup) :
    SameInterface irq (irq.setGroupForInterruptChannel id group) := by
  cases group with
  | group0FiqEl3 =>
      have hrecord := recordRouting_sameInterface
        { irq with gicd := irq.gicd.setGroup id 0 } id .group0FiqEl3
      exact ⟨hrecord.gicc, hrecord.ipi, hrecord.daif, hrecord.activer⟩
  | group1IrqEl1 =>
      have hrecord := recordRouting_sameInterface
        { irq with gicd := irq.gicd.setGroup id 1 } id .group1IrqEl1
      exact ⟨hrecord.gicc, hrecord.ipi, hrecord.daif, hrecord.activer⟩

theorem smcConfigure_sameInterface (id priority : ℤ) :
    SameInterface irq (irq.smcConfigure cpu id priority) := by
  have hgroup :=
    irq.setGroupForInterruptChannel_sameInterface id .group1IrqEl1
  rw [smcConfigure]
  split_ifs
  · exact ⟨rfl, rfl, rfl, rfl⟩
  · exact ⟨hgroup.gicc, hgroup.ipi, hgroup.daif, hgroup.activer⟩
  · exact ⟨hgroup.gicc, hgroup.ipi, hgroup.daif, hgroup.activer⟩
  · exact ⟨rfl, rfl, rfl, rfl⟩

/-- The monitor opens the CPU interface for both groups. -/
theorem gicc_setupInterrupts :
    (setupInterrupts cpu irq).gicc =
      { irq.gicc with bpr := 0x03, pmr := 0xff, ctrl := gicCtrlValue } :=
  (irq.enableCpuInterrupts.setGroupForInterruptChannel_sameInterface
    cpu.ipiInterruptId .group0FiqEl3).gicc

theorem ipiConfigured_iff_config :
    irq.IpiConfigured cpu ↔
      irq.config cpu.ipiInterruptId =
        { enabled := true, inGroup1 := false, targets := 1#8 <<< cpu.cpuIndex
          priority := 0x00 } := by
  constructor
  · intro hconf
    simp only [config, hconf.enabled, hconf.group, hconf.target, hconf.priority]
  · intro hconf
    simp only [config, Config.mk.injEq] at hconf
    obtain ⟨henabled, hgroup, htarget, hpriority⟩ := hconf
    exact ⟨henabled, hgroup, htarget, hpriority⟩

/-- `setupInterrupts` configures the kill interrupt, whatever was there. -/
theorem ipiConfigured_setupInterrupts :
    (setupInterrupts cpu irq).IpiConfigured cpu := by
  have hid := cpu.ipiInterruptId_nonneg
  rw [ipiConfigured_iff_config]
  have hconfig : (setupInterrupts cpu irq).config cpu.ipiInterruptId =
      ((irq.enableCpuInterrupts.configureSharedPeripheralInterruptAndRouteToCpu
        cpu.ipiInterruptId .unchanged cpu.cpuIndex .group0FiqEl3
        priorityM7Max).enableInterrupt cpu.ipiInterruptId).config
          cpu.ipiInterruptId := rfl
  rw [hconfig, config_enableInterrupt _ hid hid,
    config_configureSharedPeripheralInterruptAndRouteToCpu _ _ _ _ _ hid hid]
  simp [priorityM7Max]

theorem active_setupInterrupts :
    (setupInterrupts cpu irq).gicd.active cpu.ipiInterruptId = false := by
  have hid := cpu.ipiInterruptId_nonneg
  have hclear :
      (setupInterrupts cpu irq).gicd.active cpu.ipiInterruptId =
        (((irq.enableCpuInterrupts.configureSharedPeripheralInterruptAndRouteToCpu
          cpu.ipiInterruptId .unchanged cpu.cpuIndex .group0FiqEl3
            priorityM7Max).gicd.clearPending cpu.ipiInterruptId).clearActive
              cpu.ipiInterruptId).active cpu.ipiInterruptId := rfl
  rw [hclear, Gicd.active_clearActive _ hid hid]
  simp

theorem daif_unmask (daif : BitVec 64) :
    (daif &&& ~~~daifIMask &&& ~~~daifFMask) &&& daifFMask = 0 := by
  rw [BitVec.and_assoc, BitVec.and_comm (~~~daifFMask), BitVec.and_not_self]
  exact BitVec.and_zero

theorem fiqMasked_setupInterrupts :
    (setupInterrupts cpu irq).fiqMasked = false := by
  have hdaif : (setupInterrupts cpu irq).daif =
      irq.daif &&& ~~~daifIMask &&& ~~~daifFMask :=
    (irq.enableCpuInterrupts.setGroupForInterruptChannel_sameInterface
      cpu.ipiInterruptId .group0FiqEl3).daif
  rw [fiqMasked, hdaif, daif_unmask]
  decide

end Interrupts

/-! ## Sequences of calls -/

/-- A monitor call: the registers and the memory the payload makes it with. -/
structure SmcCall where
  regs : Aarch64Regs
  mem : BitVec 64 → UInt8

namespace SmcCall

def function (c : SmcCall) : BitVec 64 := c.regs.regs 0
def interruptId (c : SmcCall) : ℤ := toCInt (c.regs.regs 1)
def priority (c : SmcCall) : ℤ := toCInt (c.regs.regs 2)

/-- The calls that change the interrupt hardware. -/
def interruptFunctions : List (BitVec 64) :=
  [smcZynqmpGicIrqConfigure, smcZynqmpGicIrqEnable, smcZynqmpGicIrqDisable]

/-- One of the seven defined calls, with an interrupt id of the platform. -/
structure Defined (c : SmcCall) : Prop where
  function_mem : c.function ∈
    [smcGetAbiVersion, smcNotifyPayloadStarted, smcNotifyPayloadCrashed,
      smcWriteStdout] ++ interruptFunctions
  id_range : c.function ∈ interruptFunctions →
    gicMinUserInterruptId ≤ c.interruptId ∧
      c.interruptId ≤ gicMaxUserInterruptId

/-- The call configures interrupt `id` for the payload. -/
def Configures (c : SmcCall) (id : ℤ) : Prop :=
  c.function = smcZynqmpGicIrqConfigure ∧ PayloadPriority c.priority ∧
    16 ≤ c.interruptId ∧ id = c.interruptId

/-- The call disables or reconfigures the interrupt that kills the payload. -/
def HarmsIpi (cpu : DomainIndex) (c : SmcCall) : Prop :=
  c.interruptId = cpu.ipiInterruptId ∧
    (c.function = smcZynqmpGicIrqDisable ∨
      c.function = smcZynqmpGicIrqConfigure ∧ PayloadPriority c.priority)

/-- The state in which the call leaves the core. -/
def apply (cpu : DomainIndex) (core : Core) (c : SmcCall) : Core :=
  (handleSmc cpu c.mem core c.regs).1

/-- What a call can do to the interrupt hardware. -/
theorem apply_irq (cpu : DomainIndex) (core : Core) (c : SmcCall) :
    (c.apply cpu core).irq =
      if c.function = smcZynqmpGicIrqConfigure then
        core.irq.smcConfigure cpu c.interruptId c.priority
      else if c.function = smcZynqmpGicIrqDisable then
        core.irq.disableInterrupt c.interruptId
      else if c.function = smcZynqmpGicIrqEnable then
        core.irq.enableInterrupt c.interruptId
      else core.irq := by
  simp only [apply, handleSmc, function, interruptId, priority]
  by_cases hconfigure : c.regs.regs 0 = smcZynqmpGicIrqConfigure
  · simp only [hconfigure, if_true]
    rfl
  by_cases hdisable : c.regs.regs 0 = smcZynqmpGicIrqDisable
  · simp only [hdisable, if_true]
    rfl
  by_cases henable : c.regs.regs 0 = smcZynqmpGicIrqEnable
  · simp only [henable, if_true]
    rfl
  · simp only [hconfigure, hdisable, henable, if_false]
    split_ifs
    · rfl
    · rfl
    · rfl
    · split <;> rfl
    · rfl

variable {cpu : DomainIndex} {core : Core} {c : SmcCall}

theorem Defined.interruptId_nonneg
    (hc : c.Defined) (hf : c.function ∈ interruptFunctions) :
    0 ≤ c.interruptId :=
  (hc.id_range hf).1

/-- A call that does not harm the kill interrupt leaves it configured. -/
theorem ipiConfigured_apply
    (hc : c.Defined) (hharm : ¬c.HarmsIpi cpu)
    (hconf : core.irq.IpiConfigured cpu) :
    (c.apply cpu core).irq.IpiConfigured cpu := by
  have hipi := cpu.ipiInterruptId_nonneg
  rw [Interrupts.ipiConfigured_iff_config] at hconf ⊢
  have henabled : core.irq.gicd.enabled cpu.ipiInterruptId = true :=
    congrArg Interrupts.Config.enabled hconf
  rw [apply_irq]
  split_ifs with hconfigure hdisable henable
  · have hid := hc.interruptId_nonneg (by simp [hconfigure, interruptFunctions])
    rw [Interrupts.config_smcConfigure _ _ _ hid hipi, if_neg, hconf]
    rintro ⟨hp, -, heq⟩
    exact hharm ⟨heq.symm, .inr ⟨hconfigure, hp⟩⟩
  · have hid := hc.interruptId_nonneg (by simp [hdisable, interruptFunctions])
    have hne : cpu.ipiInterruptId ≠ c.interruptId :=
      fun heq => hharm ⟨heq.symm, .inl hdisable⟩
    rw [Interrupts.config_disableInterrupt _ hid hipi, hconf, henabled]
    simp [hne]
  · have hid := hc.interruptId_nonneg (by simp [henable, interruptFunctions])
    rw [Interrupts.config_enableInterrupt _ hid hipi, hconf, henabled]
    simp
  · exact hconf

/-- A call that harms the kill interrupt does so from every state. -/
theorem not_ipiConfigured_apply
    (hharm : c.HarmsIpi cpu) : ¬(c.apply cpu core).irq.IpiConfigured cpu := by
  have hipi := cpu.ipiInterruptId_nonneg
  obtain ⟨hid, hfunction⟩ := hharm
  intro hconf
  rw [apply_irq, hid] at hconf
  rcases hfunction with hdisable | ⟨hconfigure, hp⟩
  · have hne : smcZynqmpGicIrqDisable ≠ smcZynqmpGicIrqConfigure := by decide
    rw [hdisable, if_neg hne, if_pos rfl] at hconf
    have henabled := hconf.enabled
    have hconfig := core.irq.config_disableInterrupt hipi hipi
    have hfalse := congrArg Interrupts.Config.enabled hconfig
    simp only [decide_true, Bool.not_true, Bool.and_false] at hfalse
    exact Bool.false_ne_true (hfalse.symm.trans henabled)
  · rw [hconfigure, if_pos rfl] at hconf
    have hgroup := hconf.group
    have hge : 16 ≤ cpu.ipiInterruptId := by
      have hspi := cpu.ipiInterruptId_ge
      omega
    have hconfig := core.irq.config_smcConfigure cpu c.priority hipi hipi
    rw [if_pos ⟨hp, hge, rfl⟩] at hconfig
    have htrue := congrArg Interrupts.Config.inGroup1 hconfig
    exact Bool.false_ne_true (hgroup.symm.trans htrue)

/-- A call sets the priority of the interrupt it configures. -/
theorem priority_apply_of_configures {id : ℤ}
    (hconfigures : c.Configures id) :
    (c.apply cpu core).irq.gicd.ipriorityr id = BitVec.ofInt 8 c.priority := by
  obtain ⟨hconfigure, hp, hge, hid⟩ := hconfigures
  have hnonneg : 0 ≤ c.interruptId := by omega
  rw [apply_irq, if_pos hconfigure, hid]
  have hconfig :=
    core.irq.config_smcConfigure cpu c.priority hnonneg hnonneg
  rw [if_pos ⟨hp, hge, rfl⟩] at hconfig
  exact congrArg Interrupts.Config.priority hconfig

/-- No other call changes a priority. -/
theorem priority_apply_of_not_configures {id : ℤ}
    (hc : c.Defined) (hid : 0 ≤ id) (hconfigures : ¬c.Configures id) :
    (c.apply cpu core).irq.gicd.ipriorityr id =
      core.irq.gicd.ipriorityr id := by
  rw [apply_irq]
  split_ifs with hconfigure
  · have hnonneg :=
      hc.interruptId_nonneg (by simp [hconfigure, interruptFunctions])
    have hconfig := core.irq.config_smcConfigure cpu c.priority hnonneg hid
    rw [if_neg] at hconfig
    · exact congrArg Interrupts.Config.priority hconfig
    · rintro ⟨hp, hge, heq⟩
      exact hconfigures ⟨hconfigure, hp, hge, heq⟩
  · rfl
  · rfl
  · rfl

theorem toNat_ofInt_of_payloadPriority {p : ℤ} (hp : PayloadPriority p) :
    0x80 ≤ (BitVec.ofInt 8 p).toNat := by
  have hmin := (payloadPriority_iff.mp hp).1
  have hbyte := hp.toNat_ofInt
  omega

end SmcCall

/-- The core after a sequence of calls. -/
def runSmcs (cpu : DomainIndex) (core : Core) (calls : List SmcCall) : Core :=
  calls.foldl (SmcCall.apply cpu) core

section Calls

variable {cpu : DomainIndex} {core : Core} {calls : List SmcCall}

theorem runSmcs_concat (c : SmcCall) :
    runSmcs cpu core (calls ++ [c]) = c.apply cpu (runSmcs cpu core calls) := by
  simp [runSmcs]

end Calls

/-- Registers with the arguments of a monitor call. -/
def smcRegs (x0 x1 x2 : BitVec 64) : Aarch64Regs where
  regs := fun i => if i = 0 then x0 else if i = 1 then x1 else
    if i = 2 then x2 else 0
  sp := 0
  pc := 0
  pstate := 0

def smcCall (x0 x1 x2 : BitVec 64) : SmcCall :=
  { regs := smcRegs x0 x1 x2, mem := fun _ => 0 }

end Bmboot
