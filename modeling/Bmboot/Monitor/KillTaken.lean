import Bmboot.Gic.CpuInterface
import Bmboot.Lib.StepSystem
import Bmboot.Monitor.Teardown

/-!
# A kill request can always be taken

The monitor calls of a payload, made between the interrupts that it handles.  A
kill request can be taken after every step exactly if no other interrupt could
reach the monitor to begin with, and no call spoils the configuration of the
kill interrupt, lets another interrupt through to the monitor, or makes the
monitor read where it cannot.
-/

namespace Bmboot

open StepSystem

/-! ## Calls that may abort -/

/-- How many bytes `strncpy` reads: up to the terminator, if there is one. -/
def strncpyReads : ℕ → (ℕ → UInt8) → ℕ
  | 0, _ => 0
  | n + 1, src =>
      if src 0 = 0 then 1 else strncpyReads n (fun i => src (i + 1)) + 1

/-- How many bytes the loop of `writeToStdout` reads: as many as the ring
takes. -/
def writeLoopReads (ipc : IpcBlock) : List UInt8 → ℕ
  | [] => 0
  | b :: rest =>
      let wrposNew := (ipc.executorToManager.stdoutWrpos + 1) % stdoutBufSize
      if wrposNew = ipc.managerToExecutor.stdoutRdpos then 0
      else
        writeLoopReads
          ((ipc.setStdoutByte ipc.executorToManager.stdoutWrpos b).setStdoutWrpos
            wrposNew)
          rest + 1

/-- A monitor call on memory that EL3 can read only in part.  The bytes of `mem`
count where `readable` holds; a read elsewhere aborts, and the handler of the
abort finds these registers. -/
structure SmcEntry extends SmcCall where
  readable : BitVec 64 → Bool
  abortRegs : Aarch64Regs
  abortFpregs : Aarch64FpRegs
  abortPc : BitVec 64

namespace SmcEntry

def desc (e : SmcEntry) (i : ℕ) : UInt8 :=
  e.mem (e.regs.regs 1 + BitVec.ofNat 64 i)

def data (e : SmcEntry) : List UInt8 :=
  readBytes e.mem (e.regs.regs 1) (e.regs.regs 2).toNat

/-- How many bytes `handleSmc` reads through the pointer in `x1`. -/
def reads (ipc : IpcBlock) (e : SmcEntry) : ℕ :=
  if e.function = smcNotifyPayloadCrashed then strncpyReads 32 e.desc
  else if e.function = smcWriteStdout then
    writeLoopReads ipc.stdoutRepaired e.data
  else 0

/-- The first of these bytes whose read aborts. -/
def fault (ipc : IpcBlock) (e : SmcEntry) : Option ℕ :=
  (List.range (e.reads ipc)).find? fun i =>
    !e.readable (e.regs.regs 1 + BitVec.ofNat 64 i)

/-- What the call has stored when the read of byte `i` aborts. -/
def blockAtFault (ipc : IpcBlock) (e : SmcEntry) (i : ℕ) : IpcBlock :=
  if e.function = smcNotifyPayloadCrashed then
    { ipc with
      executorToManager :=
        { ipc.executorToManager with
          faultPc := e.regs.regs 2
          faultEl := currentEl3
          faultDesc := (strncpy 32 e.desc).take i ++
            ipc.executorToManager.faultDesc.drop i } }
  else (writeLoop ipc.stdoutRepaired 0 (e.data.take i)).1

end SmcEntry

/-- `SynchronousInterrupt` on an abort: it reports the crash and hangs. -/
def Core.synchronousInterrupt (core : Core) (regs : Aarch64Regs)
    (fpregs : Aarch64FpRegs) (faultAddress : BitVec 64) : Core :=
  let inbox :=
    { core.ipc.executorToManager with fpregs := fpregs, regs := regs }
  { ipc :=
      { core.ipc with executorToManager := inbox }.reportCrash .monitor
        (cString "Monitor SynchronousInterrupt") faultAddress
    irq := core.irq.maskAll }

/-! ## The payload between its calls -/

/-- The core of a payload: the interrupts it has acknowledged and not ended,
innermost first, those it has configured, and whether the monitor hangs. -/
structure PayloadCore where
  core : Core
  active : List ActiveInterrupt
  configured : List ℤ
  hung : Bool

/-- The payload makes a monitor call, or its `IRQInterrupt` reads `IAR` or
writes `EOIR`. -/
inductive PayloadAction
  | smc (e : SmcEntry)
  | acknowledge (id : ℤ)
  | endOfInterrupt

instance (c : SmcCall) (id : ℤ) : Decidable (c.Configures id) :=
  inferInstanceAs (Decidable (_ ∧ _))

namespace PayloadCore

/-- A monitor call, unless it aborts, is that of `handleSmc`. -/
def smc (cpu : DomainIndex) (s : PayloadCore) (e : SmcEntry) : PayloadCore :=
  match e.fault s.core.ipc with
  | some i =>
      let core := { s.core with ipc := e.blockAtFault s.core.ipc i }
      { s with
        core := core.synchronousInterrupt e.abortRegs e.abortFpregs e.abortPc
        hung := true }
  | none =>
      let (core, saved) := handleSmc cpu e.mem s.core e.regs
      { s with
        core := if saved.isSome then core else { core with irq := core.irq.maskAll }
        configured :=
          if e.Configures e.interruptId then e.interruptId :: s.configured
          else s.configured
        hung := saved.isNone }

def setGicd (s : PayloadCore) (gicd : Gicd) : PayloadCore :=
  { s with core := { s.core with irq := { s.core.irq with gicd := gicd } } }

/-- The interface asserts IRQ for the interrupt, and it becomes active. -/
def acknowledge (cpu : DomainIndex) (binaryPoint : ℕ) (s : PayloadCore)
    (id : ℤ) : Option PayloadCore :=
  if Interrupts.UserInterrupt id ∧ s.core.irq.Forwards cpu id ∧
      s.core.irq.gicd.inGroup1 id = true ∧
      ∀ a ∈ s.active,
        groupPriority binaryPoint (s.core.irq.gicd.ipriorityr id) <
          groupPriority binaryPoint a.priority then
    some
      { s.setGicd (s.core.irq.gicd.setActive id) with
        active := ⟨id, s.core.irq.gicd.ipriorityr id⟩ :: s.active }
  else none

def endOfInterrupt (s : PayloadCore) : Option PayloadCore :=
  match s.active with
  | [] => none
  | a :: rest =>
      some
        { s.setGicd (s.core.irq.gicd.clearActive a.id) with active := rest }

def step (cpu : DomainIndex) (binaryPoint : ℕ) (s : PayloadCore)
    (a : PayloadAction) : Option PayloadCore :=
  if s.hung then none
  else
    match a with
    | .smc e => some (s.smc cpu e)
    | .acknowledge id => s.acknowledge cpu binaryPoint id
    | .endOfInterrupt => s.endOfInterrupt

/-- The payload starts on what `setupInterrupts` leaves. -/
def start (cpu : DomainIndex) (ipc : IpcBlock) (irq : Interrupts) :
    PayloadCore where
  core := ⟨ipc, Interrupts.setupInterrupts cpu irq⟩
  active := []
  configured := []
  hung := false

/-! ## Kill requests -/

/-- The interrupt hardware with these requests in the channel. -/
def withIsr (s : PayloadCore) (isr : BitVec 32) : Interrupts :=
  { s.core.irq with ipi := { s.core.irq.ipi with isr := isr } }

/-- The kill interrupt is pending with its line, another one if a device has
raised it. -/
def Pending (cpu : DomainIndex) (irq : Interrupts) (raised : ℤ → Prop)
    (id : ℤ) : Prop :=
  Interrupts.UserInterrupt id ∧
    (id = cpu.ipiInterruptId ∧ irq.ipiLine = true ∨
      id ≠ cpu.ipiInterruptId ∧ raised id)

/-- Whatever other interrupts are pending, a kill request enters the handler of
FIQ, which finds the kill interrupt. -/
def TakesKill (cpu : DomainIndex) (binaryPoint : ℕ) (s : PayloadCore) : Prop :=
  ∀ raised isr, isr &&& Interrupts.killMask ≠ 0 →
    (s.withIsr isr).TakesFiq cpu binaryPoint s.active
      (Pending cpu (s.withIsr isr) raised) cpu.ipiInterruptId

/-- Nothing but a kill request enters the handler of FIQ, which would crash the
monitor. -/
def TakesNoOther (cpu : DomainIndex) (binaryPoint : ℕ) (s : PayloadCore) :
    Prop :=
  ∀ raised isr id, isr &&& Interrupts.killMask = 0 →
    ¬(s.withIsr isr).TakesFiq cpu binaryPoint s.active
      (Pending cpu (s.withIsr isr) raised) id

/-- The monitor runs, the kill interrupt is as the monitor has set it up and
every interrupt the payload has configured is less urgent; a kill request is
taken now and whatever interrupts the payload takes and ends from here, and
nothing else is taken for one. -/
structure Killable (cpu : DomainIndex) (binaryPoint : ℕ) (s : PayloadCore) :
    Prop where
  runs : s.hung = false
  ipi : s.core.irq.IpiConfigured cpu
  priority : ∀ id ∈ s.configured,
    0x80 ≤ (s.core.irq.gicd.ipriorityr id).toNat
  taken : ∀ as t, (∀ e, .smc e ∉ as) →
    run (step cpu binaryPoint) s as = some t → t.TakesKill cpu binaryPoint
  alone : ∀ as t, (∀ e, .smc e ∉ as) →
    run (step cpu binaryPoint) s as = some t → t.TakesNoOther cpu binaryPoint

end PayloadCore

/-! ## Rivals of the kill interrupt -/

namespace Interrupts

/-- The interrupt goes to EL1, and its handler can be interrupted for a kill
request. -/
def GoesToPayload (binaryPoint : ℕ) (irq : Interrupts) (id : ℤ) : Prop :=
  irq.gicd.inGroup1 id = true ∧ 2 ^ binaryPoint ≤ (irq.gicd.ipriorityr id).toNat

/-- No interrupt but the kill interrupt comes to the monitor, and that one only
from the manager. -/
structure KillAlone (cpu : DomainIndex) (binaryPoint : ℕ) (irq : Interrupts) :
    Prop where
  others : ∀ id, UserInterrupt id → id ≠ cpu.ipiInterruptId →
    irq.Forwards cpu id → irq.GoesToPayload binaryPoint id
  sources : irq.ipi.enabled = killMask

end Interrupts

/-- The call enables another interrupt that is not one for the payload. -/
def SmcCall.EnablesRival (cpu : DomainIndex) (binaryPoint : ℕ)
    (irq : Interrupts) (c : SmcCall) : Prop :=
  c.function = smcZynqmpGicIrqEnable ∧ c.interruptId ≠ cpu.ipiInterruptId ∧
    irq.Reaches cpu c.interruptId ∧ ¬irq.GoesToPayload binaryPoint c.interruptId

/-- The call leaves the kill interrupt alone, reads only what can be read, and
enables no rival. -/
structure SmcEntry.Spares (cpu : DomainIndex) (binaryPoint : ℕ) (core : Core)
    (e : SmcEntry) : Prop where
  ipi : ¬e.HarmsIpi cpu
  reads : e.fault core.ipc = none
  rival : ¬e.EnablesRival cpu binaryPoint core.irq

def PayloadCore.SparesKill (cpu : DomainIndex) (binaryPoint : ℕ)
    (s : PayloadCore) : PayloadAction → Prop
  | .smc e => e.Spares cpu binaryPoint s.core
  | .acknowledge _ | .endOfInterrupt => True


/-! ## What a call does -/

namespace SmcCall

variable {cpu : DomainIndex} {core : Core} {c : SmcCall} {id : ℤ}

/-- A defined call returns. -/
theorem Defined.returns (hc : c.Defined) (cpu : DomainIndex) (core : Core) :
    (handleSmc cpu c.mem core c.regs).2.isSome = true := by
  have hmem := hc.function_mem
  simp only [interruptFunctions, List.mem_append, List.mem_cons,
    List.not_mem_nil, or_false, function] at hmem
  simp only [handleSmc, writeToStdout_two]
  split_ifs with h₁ h₂ h₃ h₄ h₅ h₆ h₇
  all_goals first | rfl | skip
  simp_all

/-- No call touches the CPU interface, the IPI channel or the exception mask. -/
theorem apply_interface (cpu : DomainIndex) (core : Core) (c : SmcCall) :
    (c.apply cpu core).irq.gicc = core.irq.gicc ∧
      (c.apply cpu core).irq.ipi = core.irq.ipi ∧
      (c.apply cpu core).irq.daif = core.irq.daif := by
  rw [apply_irq]
  split_ifs
  · have hsame := core.irq.smcConfigure_sameInterface cpu c.interruptId
      c.priority
    exact ⟨hsame.gicc, hsame.ipi, hsame.daif⟩
  · exact ⟨rfl, rfl, rfl⟩
  · exact ⟨rfl, rfl, rfl⟩
  · exact ⟨rfl, rfl, rfl⟩

theorem active_apply (cpu : DomainIndex) (core : Core) (c : SmcCall) (id : ℤ) :
    (c.apply cpu core).irq.gicd.active id =
      if c.function = smcZynqmpGicIrqEnable then
        (core.irq.gicd.clearActive c.interruptId).active id
      else core.irq.gicd.active id := by
  have hne : smcZynqmpGicIrqEnable ≠ smcZynqmpGicIrqConfigure ∧
      smcZynqmpGicIrqEnable ≠ smcZynqmpGicIrqDisable := by decide
  rw [apply_irq]
  by_cases henable : c.function = smcZynqmpGicIrqEnable
  · rw [if_pos henable, henable, if_neg hne.1, if_neg hne.2, if_pos rfl]
    rfl
  · rw [if_neg henable, if_neg henable]
    split_ifs
    · have hsame := core.irq.smcConfigure_sameInterface cpu c.interruptId
        c.priority
      simp only [Gicd.active, hsame.activer]
    · rfl
    · rfl

end SmcCall

/-! ## What keeps a payload killable -/

namespace Interrupts

variable {cpu : DomainIndex} {binaryPoint : ℕ} {irq irq' : Interrupts} {id : ℤ}

theorem UserInterrupt.ipi (cpu : DomainIndex) :
    UserInterrupt cpu.ipiInterruptId := by
  cases cpu <;> decide

/-- The configuration, the active bit and the CPU interface decide whether an
interrupt is forwarded. -/
theorem Forwards.congr
    (h : irq.Forwards cpu id) (hconfig : irq'.config id = irq.config id)
    (hactive : irq'.gicd.active id = irq.gicd.active id)
    (hgicc : irq'.gicc = irq.gicc) : irq'.Forwards cpu id := by
  simp only [config, Config.mk.injEq] at hconfig
  obtain ⟨henabled, hgroup, htargets, hpriority⟩ := hconfig
  refine ⟨⟨?_, ?_, ?_⟩, ?_, ?_⟩
  · rw [Gicd.targets, htargets]
    exact h.target
  · rw [hpriority, hgicc]
    exact h.mask
  · rw [hgroup, hgicc]
    exact h.group
  · rw [henabled]
    exact h.enabled
  · rw [hactive]
    exact h.inactive

theorem GoesToPayload.congr
    (h : irq.GoesToPayload binaryPoint id)
    (hgroup : irq'.gicd.inGroup1 id = irq.gicd.inGroup1 id)
    (hpriority : irq'.gicd.ipriorityr id = irq.gicd.ipriorityr id) :
    irq'.GoesToPayload binaryPoint id := by
  rw [GoesToPayload, hgroup, hpriority]
  exact h

/-- An interrupt that a payload has configured is one for the payload. -/
theorem goesToPayload_of_priority
    (hbinary : binaryPoint ≤ 7) (hgroup : irq.gicd.inGroup1 id = true)
    (hpriority : 0x80 ≤ (irq.gicd.ipriorityr id).toNat) :
    irq.GoesToPayload binaryPoint id := by
  refine ⟨hgroup, le_trans ?_ hpriority⟩
  exact Nat.pow_le_pow_right (by decide) hbinary

end Interrupts

namespace SmcCall

open Interrupts

variable {cpu : DomainIndex} {binaryPoint : ℕ} {core : Core} {c : SmcCall}
  {id : ℤ}

theorem inGroup1_apply_of_configures (hconfigures : c.Configures id) :
    (c.apply cpu core).irq.gicd.inGroup1 id = true := by
  obtain ⟨hconfigure, hp, hge, hid⟩ := hconfigures
  have hnonneg : 0 ≤ c.interruptId := by omega
  rw [apply_irq, if_pos hconfigure, hid]
  have hconfig :=
    core.irq.config_smcConfigure cpu c.priority hnonneg hnonneg
  rw [if_pos ⟨hp, hge, rfl⟩] at hconfig
  exact congrArg Config.inGroup1 hconfig

/-- A call that does not configure an interrupt can at most enable or disable
it. -/
theorem config_apply_of_not_configures
    (cpu : DomainIndex) (core : Core)
    (hc : c.Defined) (hid : 0 ≤ id) (hconfigures : ¬c.Configures id) :
    (c.apply cpu core).irq.config id =
      { core.irq.config id with
        enabled := (c.apply cpu core).irq.gicd.enabled id } := by
  rw [apply_irq]
  split_ifs with hconfigure
  · have hnonneg :=
      hc.interruptId_nonneg (by simp [hconfigure, interruptFunctions])
    have hconfig := core.irq.config_smcConfigure cpu c.priority hnonneg hid
    rw [if_neg] at hconfig
    · have henabled := congrArg Config.enabled hconfig
      simp only [config] at henabled
      rw [hconfig, henabled]
      rfl
    · rintro ⟨hp, hge, heq⟩
      exact hconfigures ⟨hconfigure, hp, hge, heq⟩
  · rfl
  · rfl
  · rfl

/-- An interrupt that the call configures becomes one for the payload, and
every other one stays what it is. -/
theorem goesToPayload_apply
    (hbinary : binaryPoint ≤ 7) (hc : c.Defined) (huser : UserInterrupt id)
    (h : c.Configures id ∨ core.irq.GoesToPayload binaryPoint id) :
    (c.apply cpu core).irq.GoesToPayload binaryPoint id := by
  by_cases hconfigures : c.Configures id
  · have hmin := toNat_ofInt_of_payloadPriority hconfigures.2.1
    refine goesToPayload_of_priority hbinary
      (inGroup1_apply_of_configures hconfigures) ?_
    rw [priority_apply_of_configures hconfigures]
    exact hmin
  · have hconfig := config_apply_of_not_configures cpu core hc huser.nonneg
      hconfigures
    exact (h.resolve_left hconfigures).congr (congrArg Config.inGroup1 hconfig)
      (congrArg Config.priority hconfig)

theorem inactive_apply
    (hc : c.Defined) (huser : UserInterrupt id)
    (h : core.irq.gicd.active id = false) :
    (c.apply cpu core).irq.gicd.active id = false := by
  rw [active_apply]
  split_ifs with henable
  · have hid := hc.interruptId_nonneg (by simp [henable, interruptFunctions])
    rw [Gicd.active_clearActive _ hid huser.nonneg, h]
    rfl
  · exact h

/-- Only a call that enables an interrupt clears its active state. -/
theorem inactive_of_apply
    (hc : c.Defined) (huser : UserInterrupt id) (henables : ¬c.Enables id)
    (h : (c.apply cpu core).irq.gicd.active id = false) :
    core.irq.gicd.active id = false := by
  rw [active_apply] at h
  split_ifs at h with henable
  · have hid := hc.interruptId_nonneg (by simp [henable, interruptFunctions])
    have hne : id ≠ c.interruptId := fun heq => henables ⟨henable, heq⟩
    rw [Gicd.active_clearActive _ hid huser.nonneg, decide_eq_false hne,
      Bool.not_false, Bool.and_true] at h
    exact h
  · exact h

theorem reaches_apply_iff
    (hc : c.Defined) (hid : 0 ≤ id) (hconfigures : ¬c.Configures id) :
    (c.apply cpu core).irq.Reaches cpu id ↔ core.irq.Reaches cpu id := by
  have hconfig := config_apply_of_not_configures cpu core hc hid hconfigures
  simp only [config, Config.mk.injEq] at hconfig
  obtain ⟨-, hgroup, htargets, hpriority⟩ := hconfig
  have hgicc := (apply_interface cpu core c).1
  rw [reaches_iff, reaches_iff, Gicd.targets, Gicd.targets, hgroup, htargets,
    hpriority, hgicc]

/-- A call that enables no rival lets no interrupt through to the monitor. -/
theorem killAlone_apply
    (hbinary : binaryPoint ≤ 7) (hc : c.Defined)
    (hrival : ¬c.EnablesRival cpu binaryPoint core.irq)
    (h : core.irq.KillAlone cpu binaryPoint) :
    (c.apply cpu core).irq.KillAlone cpu binaryPoint where
  others := by
    intro id huser hne hforwards
    refine goesToPayload_apply hbinary hc huser (or_iff_not_imp_left.mpr ?_)
    intro hconfigures
    have hreaches :=
      (reaches_apply_iff hc huser.nonneg hconfigures).mp hforwards.toReaches
    by_cases henables : c.Enables id
    · obtain ⟨henable, rfl⟩ := henables
      by_contra hgoes
      exact hrival ⟨henable, hne, hreaches, hgoes⟩
    · have henabled := ((enabled_apply hc huser.nonneg).mp
        hforwards.enabled).resolve_left henables
      have hinactive :=
        inactive_of_apply hc huser henables hforwards.inactive
      exact h.others id huser hne ⟨hreaches, henabled.1, hinactive⟩
  sources :=
    (congrArg Ipi.enabled (apply_interface cpu core c).2.1).trans h.sources

end SmcCall

namespace PayloadCore

open Interrupts

variable {cpu : DomainIndex} {binaryPoint : ℕ} {s t u : PayloadCore}

structure KillInv (cpu : DomainIndex) (binaryPoint : ℕ) (s : PayloadCore) :
    Prop where
  runs : s.hung = false
  ipi : s.core.irq.IpiConfigured cpu
  inactive : s.core.irq.gicd.active cpu.ipiInterruptId = false
  pmr : s.core.irq.gicc.pmr = 0xff
  ctrl : s.core.irq.gicc.ctrl = gicCtrlValue
  unmasked : s.core.irq.fiqMasked = false
  alone : s.core.irq.KillAlone cpu binaryPoint
  active : ∀ a ∈ s.active, UserInterrupt a.id ∧ a.id ≠ cpu.ipiInterruptId ∧
    s.core.irq.GoesToPayload binaryPoint a.id ∧
      2 ^ binaryPoint ≤ a.priority.toNat
  configured : ∀ id ∈ s.configured, UserInterrupt id ∧
    0x80 ≤ (s.core.irq.gicd.ipriorityr id).toNat

theorem KillInv.forwards_ipi (hs : KillInv cpu binaryPoint s) :
    s.core.irq.Forwards cpu cpu.ipiInterruptId := by
  refine ⟨⟨.inr ?_, ?_, ?_⟩, hs.ipi.enabled, hs.inactive⟩
  · rw [Gicd.targets, hs.ipi.target]
    cases cpu <;> decide
  · rw [hs.ipi.priority, hs.pmr]
    decide
  · rw [hs.ipi.group, hs.ctrl]
    decide

theorem KillInv.takesKill (hs : KillInv cpu binaryPoint s) :
    s.TakesKill cpu binaryPoint := by
  intro raised isr hisr
  refine ⟨⟨⟨.ipi cpu, .inl ⟨rfl, ?_⟩⟩, ?_, ?_⟩, hs.ipi.group, ?_, hs.unmasked, ?_⟩
  · simp only [ipiLine, withIsr, hs.alone.sources]
    exact decide_eq_true hisr
  · exact hs.forwards_ipi.congr rfl rfl rfl
  · intro id hpends hforwards hne
    have hgoes := hs.alone.others id hpends.1 hne (hforwards.congr rfl rfl rfl)
    have hpos : 0 < 2 ^ binaryPoint := Nat.two_pow_pos binaryPoint
    refine .inl ?_
    have hzero : (s.withIsr isr).gicd.ipriorityr cpu.ipiInterruptId = 0 :=
      hs.ipi.priority
    rw [hzero]
    exact lt_of_lt_of_le hpos hgoes.2
  · simp only [withIsr, hs.ctrl]
    decide
  · intro a ha
    have hzero : (s.withIsr isr).gicd.ipriorityr cpu.ipiInterruptId = 0 :=
      hs.ipi.priority
    rw [hzero, groupPriority_zero]
    exact groupPriority_pos_iff.mpr (hs.active a ha).2.2.2

theorem KillInv.takesNoOther (hs : KillInv cpu binaryPoint s) :
    s.TakesNoOther cpu binaryPoint := by
  intro raised isr id hisr htakes
  obtain ⟨huser, ⟨-, hline⟩ | ⟨hne, -⟩⟩ := htakes.acknowledges.pends
  · simp only [ipiLine, withIsr, hs.alone.sources, hisr] at hline
    exact absurd hline (by decide)
  · have hforwards : s.core.irq.Forwards cpu id :=
      htakes.acknowledges.forwards.congr rfl rfl rfl
    have hgroup := (hs.alone.others id huser hne hforwards).1
    exact Bool.false_ne_true (htakes.group0.symm.trans hgroup)

/-! ## Steps -/

theorem acknowledge_eq_some_iff {id : ℤ} :
    s.acknowledge cpu binaryPoint id = some t ↔
      (UserInterrupt id ∧ s.core.irq.Forwards cpu id ∧
        s.core.irq.gicd.inGroup1 id = true ∧
        ∀ a ∈ s.active,
          groupPriority binaryPoint (s.core.irq.gicd.ipriorityr id) <
            groupPriority binaryPoint a.priority) ∧
      { s.setGicd (s.core.irq.gicd.setActive id) with
        active := ⟨id, s.core.irq.gicd.ipriorityr id⟩ :: s.active } = t := by
  rw [acknowledge, Option.ite_none_right_eq_some, Option.some.injEq]

theorem KillInv.acknowledge {id : ℤ}
    (hs : KillInv cpu binaryPoint s)
    (h : s.acknowledge cpu binaryPoint id = some t) :
    KillInv cpu binaryPoint t := by
  obtain ⟨⟨huser, hforwards, hgroup, -⟩, rfl⟩ := acknowledge_eq_some_iff.mp h
  have hne : id ≠ cpu.ipiInterruptId := by
    rintro rfl
    exact Bool.false_ne_true (hs.ipi.group.symm.trans hgroup)
  have hgoes := hs.alone.others id huser hne hforwards
  have hactive := fun id' (h' : UserInterrupt id') =>
    s.core.irq.gicd.active_setActive huser.nonneg h'.nonneg
  exact
    { runs := hs.runs
      ipi := ⟨hs.ipi.enabled, hs.ipi.group, hs.ipi.target, hs.ipi.priority⟩
      inactive := by
        refine (hactive _ (.ipi cpu)).trans ?_
        rw [hs.inactive, decide_eq_false hne.symm]
        rfl
      pmr := hs.pmr
      ctrl := hs.ctrl
      unmasked := hs.unmasked
      alone :=
        { others := by
            intro id' huser' hne' hforwards'
            have hinactive :=
              (hactive id' huser').symm.trans hforwards'.inactive
            rw [Bool.or_eq_false_iff] at hinactive
            have hbefore : s.core.irq.Forwards cpu id' :=
              ⟨⟨hforwards'.target, hforwards'.mask, hforwards'.group⟩,
                hforwards'.enabled, hinactive.1⟩
            exact (hs.alone.others id' huser' hne' hbefore).congr rfl rfl
          sources := hs.alone.sources }
      active := by
        intro a ha
        rcases List.mem_cons.mp ha with rfl | hmem
        · exact ⟨huser, hne, hgoes.congr rfl rfl, hgoes.2⟩
        · obtain ⟨huser', hne', hgoes', hpriority⟩ := hs.active a hmem
          exact ⟨huser', hne', hgoes'.congr rfl rfl, hpriority⟩
      configured := hs.configured }

theorem endOfInterrupt_eq_some (h : s.endOfInterrupt = some t) :
    ∃ a rest, s.active = a :: rest ∧
      t = { s.setGicd (s.core.irq.gicd.clearActive a.id) with
        active := rest } := by
  unfold endOfInterrupt at h
  split at h
  · cases h
  next a rest hactive =>
    exact ⟨a, rest, hactive, (Option.some.inj h).symm⟩

theorem KillInv.endOfInterrupt
    (hs : KillInv cpu binaryPoint s) (h : s.endOfInterrupt = some t) :
    KillInv cpu binaryPoint t := by
  obtain ⟨a, rest, hstack, rfl⟩ := endOfInterrupt_eq_some h
  have hmem : ∀ b ∈ rest, b ∈ s.active := by
    intro b hb
    rw [hstack]
    exact List.mem_cons_of_mem a hb
  obtain ⟨huser, hne, hgoes, -⟩ := hs.active a (by rw [hstack]; exact .head rest)
  have hactive := fun id' (h' : UserInterrupt id') =>
    s.core.irq.gicd.active_clearActive huser.nonneg h'.nonneg
  exact
    { runs := hs.runs
      ipi := ⟨hs.ipi.enabled, hs.ipi.group, hs.ipi.target, hs.ipi.priority⟩
      inactive := by
        refine (hactive _ (.ipi cpu)).trans ?_
        rw [hs.inactive]
        rfl
      pmr := hs.pmr
      ctrl := hs.ctrl
      unmasked := hs.unmasked
      alone :=
        { others := by
            intro id' huser' hne' hforwards'
            by_cases hid : id' = a.id
            · rw [hid]
              exact hgoes.congr rfl rfl
            · have hinactive :=
                (hactive id' huser').symm.trans hforwards'.inactive
              rw [decide_eq_false hid, Bool.not_false, Bool.and_true]
                at hinactive
              have hbefore : s.core.irq.Forwards cpu id' :=
                ⟨⟨hforwards'.target, hforwards'.mask, hforwards'.group⟩,
                  hforwards'.enabled, hinactive⟩
              exact (hs.alone.others id' huser' hne' hbefore).congr rfl rfl
          sources := hs.alone.sources }
      active := by
        intro b hb
        obtain ⟨huser', hne', hgoes', hpriority⟩ := hs.active b (hmem b hb)
        exact ⟨huser', hne', hgoes'.congr rfl rfl, hpriority⟩
      configured := hs.configured }

/-- A call that reads what it can read does what `handleSmc` does. -/
theorem smc_of_fault_eq_none {e : SmcEntry}
    (hc : e.Defined) (hfault : e.fault s.core.ipc = none) :
    s.smc cpu e =
      { s with
        core := e.apply cpu s.core
        configured :=
          if e.Configures e.interruptId then e.interruptId :: s.configured
          else s.configured
        hung := false } := by
  have hreturns := hc.returns cpu s.core
  have hsome := Option.isNone_eq_false_iff.mpr hreturns
  simp only [smc, hfault, hreturns, hsome, if_true]
  rfl

theorem hung_of_fault {e : SmcEntry} {i : ℕ}
    (hfault : e.fault s.core.ipc = some i) : (s.smc cpu e).hung = true := by
  simp only [smc, hfault]

theorem KillInv.configured_smc {e : SmcEntry} {id : ℤ}
    (hs : KillInv cpu binaryPoint s) (hc : e.Defined)
    (hid : id ∈ if e.Configures e.interruptId then e.interruptId :: s.configured
      else s.configured) :
    UserInterrupt id ∧
      0x80 ≤ ((e.apply cpu s.core).irq.gicd.ipriorityr id).toNat := by
  have hpriority : e.Configures id → UserInterrupt id ∧
      0x80 ≤ ((e.apply cpu s.core).irq.gicd.ipriorityr id).toNat := by
    intro hconfigures
    rw [SmcCall.priority_apply_of_configures hconfigures]
    refine ⟨?_, SmcCall.toNat_ofInt_of_payloadPriority hconfigures.2.1⟩
    rw [hconfigures.2.2.2]
    exact hc.id_range (by simp [hconfigures.1, SmcCall.interruptFunctions])
  by_cases hconfigures : e.Configures id
  · exact hpriority hconfigures
  · have hold : id ∈ s.configured := by
      split_ifs at hid with hown
      · rcases List.mem_cons.mp hid with rfl | hmem
        · exact absurd hown hconfigures
        · exact hmem
      · exact hid
    obtain ⟨huser, hmin⟩ := hs.configured id hold
    rw [SmcCall.priority_apply_of_not_configures hc huser.nonneg hconfigures]
    exact ⟨huser, hmin⟩

theorem KillInv.smc {e : SmcEntry}
    (hs : KillInv cpu binaryPoint s) (hbinary : binaryPoint ≤ 7)
    (hc : e.Defined) (hspares : e.Spares cpu binaryPoint s.core) :
    KillInv cpu binaryPoint (s.smc cpu e) := by
  obtain ⟨hgicc, -, hdaif⟩ := SmcCall.apply_interface cpu s.core e.toSmcCall
  rw [smc_of_fault_eq_none hc hspares.reads]
  exact
    { runs := rfl
      ipi := SmcCall.ipiConfigured_apply hc hspares.ipi hs.ipi
      inactive := SmcCall.inactive_apply hc (.ipi cpu) hs.inactive
      pmr := (congrArg Gicc.pmr hgicc).trans hs.pmr
      ctrl := (congrArg Gicc.ctrl hgicc).trans hs.ctrl
      unmasked := by
        simp only [fiqMasked, hdaif]
        exact hs.unmasked
      alone := SmcCall.killAlone_apply hbinary hc hspares.rival hs.alone
      active := by
        intro a ha
        obtain ⟨huser, hne, hgoes, hpriority⟩ := hs.active a ha
        exact ⟨huser, hne,
          SmcCall.goesToPayload_apply hbinary hc huser (.inr hgoes), hpriority⟩
      configured := fun id hid => hs.configured_smc hc hid }

/-- A step that is not a call. -/
theorem KillInv.interruptStep {a : PayloadAction}
    (hs : KillInv cpu binaryPoint s) (ha : ∀ e, a ≠ .smc e)
    (h : s.step cpu binaryPoint a = some t) : KillInv cpu binaryPoint t := by
  simp only [step, hs.runs, Bool.false_eq_true, if_false] at h
  cases a with
  | smc e => exact absurd rfl (ha e)
  | acknowledge id => exact hs.acknowledge h
  | endOfInterrupt => exact hs.endOfInterrupt h

theorem KillInv.step {a : PayloadAction}
    (hs : KillInv cpu binaryPoint s) (hbinary : binaryPoint ≤ 7)
    (hc : ∀ e, a = .smc e → e.Defined) (hspares : s.SparesKill cpu binaryPoint a)
    (h : s.step cpu binaryPoint a = some t) : KillInv cpu binaryPoint t := by
  cases a with
  | smc e =>
      simp only [PayloadCore.step, hs.runs, Bool.false_eq_true, if_false,
        Option.some.injEq] at h
      rw [← h]
      exact hs.smc hbinary (hc e rfl) hspares
  | acknowledge id => exact hs.interruptStep (by rintro _ ⟨⟩) h
  | endOfInterrupt => exact hs.interruptStep (by rintro _ ⟨⟩) h

theorem KillInv.killable (hs : KillInv cpu binaryPoint s) :
    s.Killable cpu binaryPoint := by
  have hkeep : ∀ as t, (∀ e, .smc e ∉ as) →
      run (PayloadCore.step cpu binaryPoint) s as = some t →
        KillInv cpu binaryPoint t := by
    intro as t has hrun
    refine run_preserves_of (P := fun a => ∀ e, a ≠ .smc e)
      (fun _ _ _ hinv ha hstep => hinv.interruptStep ha hstep) hs ?_ hrun
    rintro a ha e rfl
    exact has e ha
  exact
    { runs := hs.runs
      ipi := hs.ipi
      priority := fun id hid => (hs.configured id hid).2
      taken := fun as t has hrun => (hkeep as t has hrun).takesKill
      alone := fun as t has hrun => (hkeep as t has hrun).takesNoOther }

/-! ## What makes a payload unkillable -/

/-- The handlers end one after the other. -/
theorem exists_run_ended (cpu : DomainIndex) (binaryPoint : ℕ)
    (hs : s.hung = false) :
    ∃ as t, (∀ e, .smc e ∉ as) ∧
      run (step cpu binaryPoint) s as = some t ∧ t.hung = false ∧
      t.active = [] ∧
      ∀ id, UserInterrupt id → s.core.irq.Forwards cpu id →
        ¬s.core.irq.GoesToPayload binaryPoint id →
        t.core.irq.Forwards cpu id ∧
          ¬t.core.irq.GoesToPayload binaryPoint id := by
  obtain ⟨n, hn⟩ : ∃ n, s.active.length = n := ⟨_, rfl⟩
  induction n generalizing s with
  | zero =>
      exact ⟨[], s, by simp, rfl, hs, List.eq_nil_of_length_eq_zero hn,
        fun _ _ hforwards hgoes => ⟨hforwards, hgoes⟩⟩
  | succ n ih =>
      obtain ⟨a, rest, hactive⟩ := List.exists_cons_of_length_eq_add_one hn
      let u : PayloadCore :=
        { s.setGicd (s.core.irq.gicd.clearActive a.id) with active := rest }
      have hu : s.step cpu binaryPoint .endOfInterrupt = some u := by
        simp only [step, hs, Bool.false_eq_true, if_false,
          PayloadCore.endOfInterrupt]
        rw [hactive]
      have hrest : u.active.length = n := by
        rw [hactive] at hn
        exact Nat.succ_injective hn
      obtain ⟨as, t, has, hrun, hhung, hempty, hkeep⟩ := ih (s := u) hs hrest
      refine ⟨.endOfInterrupt :: as, t, ?_, ?_, hhung, hempty, ?_⟩
      · intro e he
        rcases List.mem_cons.mp he with he | he
        · cases he
        · exact has e he
      · exact run_cons_eq_some.mpr ⟨u, hu, hrun⟩
      · intro id huser hforwards hgoes
        refine hkeep id huser ⟨⟨hforwards.target, hforwards.mask,
          hforwards.group⟩, hforwards.enabled, ?_⟩ fun h => hgoes (h.congr rfl rfl)
        exact s.core.irq.gicd.active_clearActive_of_false huser.nonneg
          hforwards.inactive

/-- An interrupt that comes to the monitor, or whose handler holds up a kill
request, makes the payload unkillable. -/
theorem Killable.goesToPayload {id : ℤ}
    (hs : s.Killable cpu binaryPoint) (huser : UserInterrupt id)
    (hne : id ≠ cpu.ipiInterruptId) (hforwards : s.core.irq.Forwards cpu id) :
    s.core.irq.GoesToPayload binaryPoint id := by
  by_contra hgoes
  obtain ⟨as, t, has, hrun, hhung, hactive, hkeep⟩ :=
    exists_run_ended cpu binaryPoint hs.runs
  obtain ⟨hforwards, hgoes⟩ := hkeep id huser hforwards hgoes
  have hkill : killMask &&& killMask ≠ 0 := by decide
  have htaken := hs.taken as t has hrun (fun _ => False) killMask hkill
  by_cases hgroup : t.core.irq.gicd.inGroup1 id = true
  · -- its handler cannot be interrupted
    let u : PayloadCore :=
      { t.setGicd (t.core.irq.gicd.setActive id) with
        active := ⟨id, t.core.irq.gicd.ipriorityr id⟩ :: t.active }
    have hu : t.step cpu binaryPoint (.acknowledge id) = some u := by
      simp only [step, hhung, Bool.false_eq_true, if_false]
      refine acknowledge_eq_some_iff.mpr ⟨⟨huser, hforwards, hgroup, ?_⟩, rfl⟩
      simp [hactive]
    have hblocked := hs.taken (as ++ [.acknowledge id]) u
      (by simpa using has) (run_concat_eq_some.mpr ⟨t, hrun, hu⟩)
      (fun _ => False) killMask hkill
    have hpreempts := hblocked.preempts _ List.mem_cons_self
    refine hgoes ⟨hgroup, groupPriority_pos_iff.mp ?_⟩
    exact lt_of_le_of_lt (Nat.zero_le _) hpreempts
  · -- the monitor takes it for a kill request
    have hline : (t.withIsr 0).ipiLine = false := by
      simp [ipiLine, withIsr]
    refine hs.alone as t has hrun (fun id' => id' = id) 0 id (by decide) ?_
    refine ⟨⟨⟨huser, .inr ⟨hne, rfl⟩⟩, hforwards.congr rfl rfl rfl, ?_⟩,
      Bool.eq_false_iff.mpr hgroup, htaken.fiqEn, htaken.unmasked, ?_⟩
    · rintro id' ⟨-, ⟨-, hpending⟩ | ⟨-, rfl⟩⟩ - hne'
      · rw [hline] at hpending
        cases hpending
      · exact absurd rfl hne'
    · rw [hactive]
      simp

/-- Other sources of the channel make the payload unkillable. -/
theorem Killable.sources (hs : s.Killable cpu binaryPoint) :
    s.core.irq.ipi.enabled = killMask := by
  have htaken := hs.taken [] s (by simp) rfl (fun _ => False)
  have hkill := htaken killMask (by decide)
  have hown : killMask &&& s.core.irq.ipi.enabled ≠ 0 := by
    obtain ⟨-, ⟨-, hline⟩ | ⟨hne, -⟩⟩ := hkill.acknowledges.pends
    · exact of_decide_eq_true hline
    · exact absurd rfl hne
  have hother : s.core.irq.ipi.enabled &&& ~~~killMask = 0 := by
    by_contra hne
    refine hs.alone [] s (by simp) rfl (fun _ => False) (~~~killMask)
      cpu.ipiInterruptId (by decide) ?_
    refine ⟨⟨⟨.ipi cpu, .inl ⟨rfl, ?_⟩⟩, hkill.acknowledges.forwards.congr rfl rfl
      rfl, ?_⟩, hkill.group0, hkill.fiqEn, hkill.unmasked, hkill.preempts⟩
    · have hline : ~~~killMask &&& s.core.irq.ipi.enabled ≠ 0 := by
        rw [BitVec.and_comm]
        exact hne
      simp only [ipiLine, withIsr]
      exact decide_eq_true hline
    · rintro id' ⟨-, ⟨rfl, -⟩ | ⟨-, hraised⟩⟩ - hne'
      · exact absurd rfl hne'
      · exact hraised.elim
  rcases eq_zero_or_killMask hother with hzero | hmask
  · rw [hzero] at hown
    exact absurd (by decide) hown
  · exact hmask

/-- A call that does not spare the kill interrupt makes the payload
unkillable. -/
theorem Killable.spares_of_smc {e : SmcEntry}
    (hc : e.Defined) (hs : (s.smc cpu e).Killable cpu binaryPoint) :
    e.Spares cpu binaryPoint s.core := by
  have hfault : e.fault s.core.ipc = none := by
    refine Option.eq_none_iff_forall_ne_some.mpr fun i hi => ?_
    exact Bool.false_ne_true (hs.runs.symm.trans (hung_of_fault hi))
  rw [smc_of_fault_eq_none hc hfault] at hs
  refine ⟨fun hharm => SmcCall.not_ipiConfigured_apply hharm hs.ipi, hfault, ?_⟩
  rintro ⟨henable, hne, hreaches, hgoes⟩
  have huser : UserInterrupt e.interruptId :=
    hc.id_range (by simp [henable, SmcCall.interruptFunctions])
  have hconfigures : ¬e.Configures e.interruptId := by
    rintro ⟨hconfigure, -⟩
    rw [henable] at hconfigure
    exact absurd hconfigure (by decide)
  have hforwards : (e.apply cpu s.core).irq.Forwards cpu e.interruptId := by
    refine ⟨(SmcCall.reaches_apply_iff hc huser.nonneg hconfigures).mpr hreaches,
      (SmcCall.enabled_apply hc huser.nonneg).mpr (.inl ⟨henable, rfl⟩), ?_⟩
    rw [SmcCall.active_apply, if_pos henable,
      Gicd.active_clearActive _ huser.nonneg huser.nonneg]
    simp
  have hconfig := SmcCall.config_apply_of_not_configures cpu s.core hc
    huser.nonneg hconfigures
  exact hgoes ((hs.goesToPayload huser hne hforwards).congr
    (congrArg Config.inGroup1 hconfig).symm
    (congrArg Config.priority hconfig).symm)

/-! ## Main result -/

/-- The hardware that `setupInterrupts` leaves, with no rival. -/
theorem killInv_start
    (cpu : DomainIndex) (ipc : IpcBlock) (irq : Interrupts)
    (halone : (setupInterrupts cpu irq).KillAlone cpu binaryPoint) :
    KillInv cpu binaryPoint (start cpu ipc irq) where
  runs := rfl
  ipi := ipiConfigured_setupInterrupts cpu irq
  inactive := active_setupInterrupts cpu irq
  pmr := congrArg Gicc.pmr (gicc_setupInterrupts cpu irq)
  ctrl := congrArg Gicc.ctrl (gicc_setupInterrupts cpu irq)
  unmasked := fiqMasked_setupInterrupts cpu irq
  alone := halone
  active := by simp [start]
  configured := by simp [start]

end PayloadCore

/-- A call whose reads all succeed. -/
def smcEntry (x0 x1 x2 : BitVec 64) : SmcEntry where
  toSmcCall := smcCall x0 x1 x2
  readable := fun _ => true
  abortRegs := smcRegs 0 0 0
  abortFpregs := ⟨fun _ => 0, 0, 0⟩
  abortPc := 0

/-- The description of a crash lies where EL3 cannot read. -/
example : { smcEntry smcNotifyPayloadCrashed 0xf0000000 0 with
    readable := fun _ => false }.fault .zero = some 0 := by
  decide +kernel

instance (cpu : DomainIndex) (c : SmcCall) : Decidable (c.HarmsIpi cpu) :=
  inferInstanceAs (Decidable (_ ∧ (_ ∨ _ ∧ _)))

instance (cpu : DomainIndex) (binaryPoint : ℕ) (irq : Interrupts)
    (c : SmcCall) : Decidable (c.EnablesRival cpu binaryPoint irq) :=
  inferInstanceAs (Decidable (_ ∧ _ ∧ _ ∧ ¬(_ ∧ _)))

/-- The payload sets up interrupt 121 and handles it. -/
def handle121 : List PayloadAction :=
  [.smc (smcEntry smcZynqmpGicIrqConfigure 121 0x80),
    .smc (smcEntry smcZynqmpGicIrqEnable 121 0), .acknowledge 121]

end Bmboot
