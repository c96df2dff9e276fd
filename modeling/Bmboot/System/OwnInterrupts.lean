import Bmboot.Monitor.Teardown
import Bmboot.System.StateWord

/-!
# No interrupt but the kill interrupt gets to the monitor

The system has the kill interrupt only.  On a core whose payloads enable no
interrupt that they have not configured, that is all there is for the monitor: a
payload's interrupts are recorded and in group 1 while it runs, and the teardown
disables every one of them before the monitor unmasks exceptions again.
-/

namespace Bmboot

open Interrupts Routine StepSystem

/-! ## The interrupts of a core -/

namespace Interrupts

/-- Interrupt `id` is enabled and goes to the core.  Interrupts below 32 are the
core's own. -/
def EnabledFor (cpu : DomainIndex) (irq : Interrupts) (id : ℤ) : Prop :=
  irq.gicd.enabled id = true ∧
    (id < 32 ∨ irq.gicd.targets id cpu.cpuIndex = true)

/-- No interrupt but the kill interrupt is enabled for the core. -/
def OnlyKillEnabled (cpu : DomainIndex) (irq : Interrupts) : Prop :=
  ∀ id, 0 ≤ id → id ≠ cpu.ipiInterruptId → ¬irq.EnabledFor cpu id

/-- Every other interrupt that is enabled for the core is recorded, and not among
those below `first`. -/
def OthersRecorded (cpu : DomainIndex) (irq : Interrupts) (first : ℤ) : Prop :=
  ∀ id, 0 ≤ id → id ≠ cpu.ipiInterruptId → irq.EnabledFor cpu id →
    first ≤ id ∧ id ≤ gicMaxUserInterruptId ∧ irq.recorded id = true

/-- What is recorded is in group 1. -/
def RecordedInGroup1 (irq : Interrupts) : Prop :=
  ∀ id, UserInterrupt id → irq.recorded id = true → irq.gicd.inGroup1 id = true

/-- Nothing is recorded. -/
def NothingRecorded (irq : Interrupts) : Prop :=
  ∀ id, UserInterrupt id → irq.recorded id = false

section Enabled

variable {cpu : DomainIndex} {irq irq' : Interrupts} {id first : ℤ}

theorem enabledFor_iff_config :
    irq.EnabledFor cpu id ↔
      (irq.config id).enabled = true ∧
        (id < 32 ∨ (irq.config id).targets.getLsbD cpu.cpuIndex = true) := Iff.rfl

theorem enabledFor_congr (h : irq'.config id = irq.config id) :
    irq'.EnabledFor cpu id ↔ irq.EnabledFor cpu id := by
  rw [enabledFor_iff_config, enabledFor_iff_config, h]

theorem OnlyKillEnabled.othersRecorded (h : irq.OnlyKillEnabled cpu) :
    irq.OthersRecorded cpu first := by
  intro id hid hne henabled
  exact absurd henabled (h id hid hne)

theorem OthersRecorded.onlyKillEnabled (h : irq.OthersRecorded cpu first)
    (hfirst : gicMaxUserInterruptId < first) : irq.OnlyKillEnabled cpu := by
  intro id hid hne henabled
  obtain ⟨hge, hle, -⟩ := h id hid hne henabled
  omega

theorem OthersRecorded.zero (h : irq.OthersRecorded cpu first) :
    irq.OthersRecorded cpu gicMinUserInterruptId := by
  intro id hid hne henabled
  exact ⟨hid, (h id hid hne henabled).2⟩

theorem NothingRecorded.recordedInGroup1 (h : irq.NothingRecorded) :
    irq.RecordedInGroup1 := by
  intro id huser hrecorded
  rw [h id huser] at hrecorded
  exact absurd hrecorded Bool.false_ne_true

/-- Disabling an interrupt enables no other. -/
theorem enabledFor_of_disableInterrupt {id' : ℤ} (h : 0 ≤ id) (h' : 0 ≤ id')
    (henabled : (irq.disableInterrupt id).EnabledFor cpu id') :
    irq.EnabledFor cpu id' ∧ id' ≠ id := by
  obtain ⟨hbit, htarget⟩ := henabled
  have hclear : (irq.disableInterrupt id).gicd.enabled id' = _ :=
    irq.gicd.enabled_clearEnable h h'
  rw [hclear, Bool.and_eq_true, Bool.not_eq_true', decide_eq_false_iff_not] at hbit
  exact ⟨⟨hbit.1, htarget⟩, hbit.2⟩

theorem enabledFor_of_enableInterrupt {id' : ℤ} (h : 0 ≤ id) (h' : 0 ≤ id')
    (henabled : (irq.enableInterrupt id).EnabledFor cpu id') :
    irq.EnabledFor cpu id' ∨ id' = id := by
  rw [enabledFor_iff_config, config_enableInterrupt _ h h'] at henabled
  obtain ⟨hbit, htarget⟩ := henabled
  rcases Bool.or_eq_true_iff.mp hbit with hbit | hid
  · exact .inl ⟨hbit, htarget⟩
  · exact .inr (of_decide_eq_true hid)

end Enabled

end Interrupts

/-! ## The payload's calls -/

namespace SmcCall

/-- A call about an interrupt names one of the platform. -/
def NamesUserInterrupt (c : SmcCall) : Prop :=
  c.function ∈ interruptFunctions → UserInterrupt c.interruptId

instance (c : SmcCall) : Decidable c.NamesUserInterrupt :=
  inferInstanceAs (Decidable (_ → _))

/-- What the call enables is the kill interrupt, or has been configured since the
monitor started. -/
def EnablesConfigured (cpu : DomainIndex) (irq : Interrupts) (c : SmcCall) : Prop :=
  c.function = smcZynqmpGicIrqEnable →
    c.interruptId = cpu.ipiInterruptId ∨ irq.recorded c.interruptId = true

instance (cpu : DomainIndex) (irq : Interrupts) (c : SmcCall) :
    Decidable (c.EnablesConfigured cpu irq) :=
  inferInstanceAs (Decidable (_ → _))

section Apply

variable {cpu : DomainIndex} {core : Core} {c : SmcCall}

/-- A call that is about no interrupt of the platform changes none. -/
theorem apply_irq_of_not_mem (h : c.function ∉ interruptFunctions) :
    (c.apply cpu core).irq = core.irq := by
  simp only [interruptFunctions, List.mem_cons, List.not_mem_nil, or_false, not_or] at h
  rw [apply_irq, if_neg h.1, if_neg h.2.2, if_neg h.2.1]

theorem othersRecorded_apply
    (hnames : c.NamesUserInterrupt) (hown : c.EnablesConfigured cpu core.irq)
    (h : core.irq.OthersRecorded cpu gicMinUserInterruptId) :
    (c.apply cpu core).irq.OthersRecorded cpu gicMinUserInterruptId := by
  by_cases hmem : c.function ∈ interruptFunctions
  · have huser := hnames hmem
    rw [apply_irq]
    split_ifs with hconfigure hdisable henable
    · intro id hid hne henabled
      have hrecorded : (core.irq.smcConfigure cpu c.interruptId c.priority).recorded
          id = true ↔ (PayloadPriority c.priority ∧ 16 ≤ c.interruptId ∧
            id = c.interruptId) ∨ core.irq.recorded id = true :=
        recorded_smcConfigure cpu core.irq c.priority huser
      have hconfig := core.irq.config_smcConfigure cpu c.priority huser.nonneg hid
      by_cases happlied : PayloadPriority c.priority ∧ 16 ≤ c.interruptId ∧
          id = c.interruptId
      · refine ⟨hid, ?_, hrecorded.mpr (.inl happlied)⟩
        rw [happlied.2.2]
        exact huser.2
      · rw [if_neg happlied] at hconfig
        obtain ⟨hge, hle, hold⟩ := h id hid hne ((enabledFor_congr hconfig).mp henabled)
        exact ⟨hge, hle, hrecorded.mpr (.inr hold)⟩
    · intro id hid hne henabled
      exact h id hid hne (enabledFor_of_disableInterrupt huser.nonneg hid henabled).1
    · intro id hid hne henabled
      rcases enabledFor_of_enableInterrupt huser.nonneg hid henabled with hold | rfl
      · exact h id hid hne hold
      · exact ⟨hid, huser.2, (hown henable).resolve_left hne⟩
    · exact h
  · rw [apply_irq_of_not_mem hmem]
    exact h

theorem recordedInGroup1_apply
    (hnames : c.NamesUserInterrupt) (h : core.irq.RecordedInGroup1) :
    (c.apply cpu core).irq.RecordedInGroup1 := by
  by_cases hmem : c.function ∈ interruptFunctions
  · have huser := hnames hmem
    rw [apply_irq]
    split_ifs with hconfigure hdisable henable
    · intro id hid hrecorded
      have hconfig :=
        core.irq.config_smcConfigure cpu c.priority huser.nonneg hid.nonneg
      have hgroup := congrArg Config.inGroup1 hconfig
      by_cases happlied : PayloadPriority c.priority ∧ 16 ≤ c.interruptId ∧
          id = c.interruptId
      · rw [if_pos happlied] at hgroup
        exact hgroup
      · rw [if_neg happlied] at hgroup
        rw [recorded_smcConfigure _ _ _ huser] at hrecorded
        exact hgroup.trans (h id hid (hrecorded.resolve_left happlied))
    · exact h
    · intro id hid hrecorded
      have hgroup := congrArg Config.inGroup1
        (core.irq.config_enableInterrupt huser.nonneg hid.nonneg)
      exact hgroup.trans (h id hid hrecorded)
    · exact h
  · rw [apply_irq_of_not_mem hmem]
    exact h

end Apply

end SmcCall

/-! ## The teardown and the setup -/

section Routines

variable {cpu : DomainIndex} {irq : Interrupts} {id first : ℤ}

theorem othersRecorded_disableTimer (h : irq.OthersRecorded cpu first) :
    (irq.disableInterrupt cntpnsInterruptId).OthersRecorded cpu first := by
  intro id hid hne henabled
  exact h id hid hne (enabledFor_of_disableInterrupt (by decide) hid henabled).1

/-- A round of the teardown disables its interrupt if that is recorded. -/
theorem othersRecorded_teardownInterrupt (hfirst : 0 ≤ first)
    (h : irq.OthersRecorded cpu first) :
    (irq.teardownInterrupt first).OthersRecorded cpu (first + 1) := by
  intro id hid hne henabled
  have hbit := irq.enabled_teardownInterrupt hfirst hid
  have htargets : (irq.teardownInterrupt first).gicd.itargetsr = irq.gicd.itargetsr := by
    rw [teardownInterrupt]
    split_ifs <;> rfl
  obtain ⟨hset, htarget⟩ := henabled
  rw [hbit, Bool.and_eq_true, Bool.not_eq_true', Bool.and_eq_false_iff,
    decide_eq_false_iff_not] at hset
  have hold : irq.EnabledFor cpu id := by
    refine ⟨hset.1, ?_⟩
    rw [Gicd.targets, htargets] at htarget
    exact htarget
  obtain ⟨hge, hle, hrecorded⟩ := h id hid hne hold
  have hother : id ≠ first := by
    rcases hset.2 with hfalse | hother
    · rw [hrecorded] at hfalse
      cases hfalse
    · exact hother
  refine ⟨by omega, hle, ?_⟩
  rw [recorded_teardownInterrupt, hrecorded, decide_eq_false hother]
  rfl

/-- An access of the setup is about the kill interrupt. -/
theorem onlyKillEnabled_setupStep (pc : SetupPc) (h : irq.OnlyKillEnabled cpu) :
    (pc.step cpu irq).1.OnlyKillEnabled cpu := by
  intro id hid hne henabled
  refine h id hid hne ?_
  cases pc with
  | recordRouting =>
      simp only [SetupPc.step] at henabled
      rw [EnabledFor, recordRouting_gicd] at henabled
      exact henabled
  | writeTargets =>
      obtain ⟨hbit, htarget⟩ := henabled
      refine ⟨hbit, htarget.imp_right fun ht => ?_⟩
      have hsame : Function.update irq.gicd.itargetsr cpu.ipiInterruptId
          (1#8 <<< cpu.cpuIndex) id = irq.gicd.itargetsr id :=
        Function.update_of_ne hne _ _
      exact (congrArg (BitVec.getLsbD · cpu.cpuIndex) hsame).symm.trans ht
  | setEnable =>
      obtain ⟨hbit, htarget⟩ := henabled
      have hset := irq.gicd.enabled_setEnable cpu.ipiInterruptId_nonneg hid
      rw [decide_eq_false hne, Bool.or_false] at hset
      exact ⟨hset.symm.trans hbit, htarget⟩
  | _ => exact henabled

theorem nothingRecorded_setupStep (pc : SetupPc) (h : irq.NothingRecorded) :
    (pc.step cpu irq).1.NothingRecorded := by
  cases pc with
  | recordRouting =>
      have huser : UserInterrupt cpu.ipiInterruptId := by
        cases cpu <;> decide
      intro id hid
      have hrecorded : (irq.recordRouting cpu.ipiInterruptId .group0FiqEl3).recorded id = _ :=
        irq.recorded_recordRouting .group0FiqEl3 huser
      refine hrecorded.trans ?_
      split_ifs
      · rfl
      · exact h id hid
  | _ => exact h

end Routines

/-! ## The histories -/

/-- At power-on no interrupt but the kill interrupt is enabled for the core. -/
structure System.QuietInitial (cpu : DomainIndex) (s : System) : Prop
    extends s.Initial where
  quiet : s.irq.OnlyKillEnabled cpu

/-- The payload enables only interrupts that it has configured, and names only
interrupts of the platform. -/
def UsesOwnInterrupts (cpu : DomainIndex) (s : System) : Action → Prop
  | .smc c => c.NamesUserInterrupt ∧ c.EnablesConfigured cpu s.irq
  | _ => True

instance (cpu : DomainIndex) (s : System) :
    ∀ a : Action, Decidable (UsesOwnInterrupts cpu s a)
  | .smc _ => inferInstanceAs (Decidable (_ ∧ _))
  | .call _ | .manager | .fail _ | .timeout | .monitor | .fiq | .abort _ _ _ =>
      inferInstanceAs (Decidable True)

/-- The payload takes no part in the step. -/
def Action.Unaided : Action → Prop
  | .smc _ => False
  | _ => True

/-- The payload at most confirms its start. -/
def Action.OnlyConfirms : Action → Prop
  | .smc c => c.function = smcNotifyPayloadStarted
  | _ => True

theorem Action.Unaided.onlyConfirms {a : Action} (ha : a.Unaided) :
    a.OnlyConfirms := by
  cases a <;> first | exact ha.elim | trivial

theorem onlyConfirms_managerSteps (n : ℕ) :
    ∀ a ∈ managerSteps n, a.OnlyConfirms := by
  intro a ha
  rw [List.eq_of_mem_replicate ha]
  trivial

theorem onlyConfirms_monitorSteps (n : ℕ) :
    ∀ a ∈ monitorSteps n, a.OnlyConfirms := by
  intro a ha
  rw [List.eq_of_mem_replicate ha]
  trivial

theorem Action.OnlyConfirms.usesOwnInterrupts
    {cpu : DomainIndex} {s : System} {a : Action} (ha : a.OnlyConfirms) :
    UsesOwnInterrupts cpu s a := by
  cases a with
  | smc c =>
      have hother : smcNotifyPayloadStarted ∉ SmcCall.interruptFunctions ∧
          smcNotifyPayloadStarted ≠ smcZynqmpGicIrqEnable := by decide
      have hfunction : c.function = smcNotifyPayloadStarted := ha
      constructor
      · intro hmem
        rw [hfunction] at hmem
        exact absurd hmem hother.1
      · intro henable
        rw [hfunction] at henable
        exact absurd henable hother.2
  | _ => trivial

/-- Where interrupts may be unmasked at EL3, the kill interrupt is the only one
that is enabled for the core; and a payload's own interrupts are all in group 1,
so that they are taken at EL1. -/
def System.OnlyKillReaches (cpu : DomainIndex) (s : System) : Prop :=
  match s.monitor with
  | .fiq _ | .crashed => True
  | .el1 .payload =>
      ∀ id, 0 ≤ id → id ≠ cpu.ipiInterruptId → s.irq.EnabledFor cpu id →
        s.irq.gicd.inGroup1 id = true
  | _ => s.irq.OnlyKillEnabled cpu

/-! ## At every point of the core -/

/-- What is known of the other interrupts at a point of the core. -/
def MonitorPc.OthersOk (cpu : DomainIndex) (irq : Interrupts) : MonitorPc → Prop
  | .crashed => True
  | .inReset | .boot => irq.OnlyKillEnabled cpu
  | .fiq (.teardown (.loop id)) => 0 ≤ id ∧ irq.OthersRecorded cpu id
  | .fiq _ => irq.OthersRecorded cpu gicMinUserInterruptId
  | .el1 .payload =>
      irq.OthersRecorded cpu gicMinUserInterruptId ∧ irq.RecordedInGroup1
  | .setup _ | .publishReady | .loop _ | .noop _ | .command _ | .accepted _
  | .rejected | .enterDummy | .el1 .dummy =>
      irq.OnlyKillEnabled cpu ∧ irq.NothingRecorded

section OthersOk

variable {cpu : DomainIndex} {irq irq' : Interrupts} {pc : MonitorPc}

/-- Wherever the core is, the other interrupts are recorded unless the monitor has
crashed. -/
theorem MonitorPc.OthersOk.othersRecorded
    (h : pc.OthersOk cpu irq) (hcrashed : pc ≠ .crashed) :
    irq.OthersRecorded cpu gicMinUserInterruptId := by
  cases pc with
  | crashed => exact absurd rfl hcrashed
  | inReset | boot => exact OnlyKillEnabled.othersRecorded h
  | fiq pc =>
      cases pc with
      | teardown pc =>
          cases pc with
          | loop id => exact h.2.zero
          | _ => exact h
      | _ => exact h
  | el1 code =>
      cases code with
      | payload => exact h.1
      | dummy => exact h.1.othersRecorded
  | _ => exact h.1.othersRecorded

theorem MonitorPc.OthersOk.onlyKillReaches {s : System}
    (h : s.monitor.OthersOk cpu s.irq) : s.OnlyKillReaches cpu := by
  rw [System.OnlyKillReaches]
  cases hpc : s.monitor with
  | fiq | crashed => trivial
  | inReset | boot =>
      rw [hpc] at h
      exact h
  | el1 code =>
      rw [hpc] at h
      cases code with
      | dummy => exact h.1
      | payload =>
          intro id hid hne henabled
          obtain ⟨-, hle, hrecorded⟩ := h.1 id hid hne henabled
          exact h.2 id ⟨hid, hle⟩ hrecorded
  | _ =>
      rw [hpc] at h
      exact h.1

variable {s t : System} {a : Action}

theorem othersOk_fiqStep {pc : FiqPc} (hpc : s.monitor = .fiq pc)
    (hs : s.monitor.OthersOk cpu s.irq) :
    (s.fiqStep cpu pc).monitor.OthersOk cpu (s.fiqStep cpu pc).irq := by
  rw [hpc] at hs
  cases pc with
  | readIar =>
      simp only [System.fiqStep, FiqPc.step, readIar]
      split_ifs <;> first | exact hs | trivial
  | readIsr iar => exact hs
  | writeIsr iar sourceMask => exact hs
  | writeEoir iar sourceMask =>
      simp only [System.fiqStep, FiqPc.step]
      split_ifs <;> first | exact hs | trivial
  | teardown pc =>
      cases pc with
      | disableTimer => exact othersRecorded_disableTimer hs
      | clearNsapr0 => exact ⟨le_rfl, hs⟩
      | loop id =>
          by_cases hmore : id ≤ gicMaxUserInterruptId
          · have hstep : s.fiqStep cpu (.teardown (.loop id)) =
                (s.setIrq (s.irq.teardownInterrupt id)).gotoMonitor
                  (.fiq (.teardown (.loop (id + 1)))) := by
              simp only [System.fiqStep, FiqPc.step, TeardownPc.step, if_pos hmore]
            rw [hstep]
            exact ⟨by have hid := hs.1; omega,
              othersRecorded_teardownInterrupt hs.1 hs.2⟩
          · have hstep : s.fiqStep cpu (.teardown (.loop id)) =
                (s.setIrq s.irq).gotoMonitor .boot := by
              simp only [System.fiqStep, FiqPc.step, TeardownPc.step, if_neg hmore]
            rw [hstep]
            exact hs.2.onlyKillEnabled (Int.not_le.mp hmore)

theorem othersOk_setupStep {pc : SetupPc} (hpc : s.monitor = .setup pc)
    (hs : s.monitor.OthersOk cpu s.irq) :
    (s.setupStep cpu pc).monitor.OthersOk cpu (s.setupStep cpu pc).irq := by
  rw [hpc] at hs
  have honly := onlyKillEnabled_setupStep pc hs.1
  have hnothing : (pc.step cpu s.irq).1.NothingRecorded :=
    nothingRecorded_setupStep pc hs.2
  simp only [System.setupStep]
  split
  next irq pc' hstep =>
    rw [hstep] at honly hnothing
    exact ⟨honly, hnothing⟩
  next irq hstep =>
    rw [hstep] at honly hnothing
    exact ⟨honly, hnothing⟩

theorem othersOk_commandStep {pc : CommandPc} (hpc : s.monitor = .command pc)
    (hs : s.monitor.OthersOk cpu s.irq) :
    (s.commandStep pc).monitor.OthersOk cpu (s.commandStep pc).irq := by
  rw [hpc] at hs
  cases pc with
  | checkEntryAddress =>
      simp only [System.commandStep]
      split_ifs <;> exact hs
  | validate call pc =>
      simp only [System.commandStep]
      split <;> exact hs
  | writeAck resp ack =>
      simp only [System.commandStep]
      split_ifs <;> exact hs
  | _ => exact hs

theorem othersOk_smcStep {c : SmcCall} (hpc : s.monitor = .el1 .payload)
    (hs : s.monitor.OthersOk cpu s.irq) (ha : UsesOwnInterrupts cpu s (.smc c)) :
    (s.smcStep cpu c).monitor.OthersOk cpu (s.smcStep cpu c).irq := by
  rw [hpc] at hs
  cases hsaved : (handleSmc cpu c.mem ⟨s.ipc, s.irq⟩ c.regs).2 with
  | none =>
      have hmonitor : (s.smcStep cpu c).monitor = .crashed := by
        simp [System.smcStep, hsaved]
      rw [hmonitor]
      trivial
  | some saved =>
      have hmonitor : (s.smcStep cpu c).monitor = .el1 .payload := by
        simp [System.smcStep, hsaved]
      have hirq : (s.smcStep cpu c).irq = (c.apply cpu ⟨s.ipc, s.irq⟩).irq := by
        simp [System.smcStep, hsaved, SmcCall.apply]
      rw [hmonitor, hirq]
      exact ⟨SmcCall.othersRecorded_apply ha.1 ha.2 hs.1,
        SmcCall.recordedInGroup1_apply ha.1 hs.2⟩

theorem othersOk_step
    (hstate : StateInv s) (hs : s.monitor.OthersOk cpu s.irq)
    (ha : UsesOwnInterrupts cpu s a) (h : s.step cpu a = some t) :
    t.monitor.OthersOk cpu t.irq := by
  revert ha
  refine System.step_cases_core
    (P := fun a t => UsesOwnInterrupts cpu s a → t.monitor.OthersOk cpu t.irq) h
    ?startup ?terminate ?manager (fun pc hpc _ => othersOk_fiqStep hpc hs) ?boot
    (fun pc hpc _ => othersOk_setupStep hpc hs) ?publishReady ?loop ?noop
    (fun pc hpc _ => othersOk_commandStep hpc hs) ?accepted ?rejected ?enterDummy
    ?fiq (fun c hpc ha => othersOk_smcStep hpc hs ha) (fun _ _ _ _ _ _ _ => trivial)
  case startup =>
    intro cntfrq pc _ _
    cases pc with
    | guard =>
        simp only [System.startupStep]
        split_ifs <;> exact hs
    | bootCore =>
        simp only [System.startupStep]
        split
        next hreset =>
          rw [hreset] at hs
          exact hs
        · exact hs
    | _ => exact hs
  case terminate =>
    intro pc _ _
    cases pc with
    | guard =>
        simp only [System.terminateStep]
        split_ifs <;> exact hs
    | _ => exact hs
  case manager =>
    intro a t _ hsame _
    rw [hsame.monitor, hsame.irq]
    exact hs
  case boot =>
    intro hpc _
    rw [hpc] at hs
    exact ⟨hs, fun _ _ => rfl⟩
  case publishReady =>
    intro hpc _
    rw [hpc] at hs
    exact hs
  case loop =>
    intro pc hpc _
    rw [hpc] at hs
    cases pc with
    | readSeq => exact hs
    | readAck seq =>
        simp only [System.loopStep]
        split_ifs <;> exact hs
    | readCmd =>
        simp only [System.loopStep]
        split_ifs <;> exact hs
  case noop =>
    intro pc hpc _
    rw [hpc] at hs
    cases pc <;> exact hs
  case accepted =>
    intro pc hpc _
    rw [hpc] at hs
    cases pc with
    | readEntryAddress => exact hs
    | enterEl1 address => exact ⟨hs.1.othersRecorded, hs.2.recordedInGroup1⟩
  case rejected =>
    intro hpc _
    rw [hpc] at hs
    exact hs
  case enterDummy =>
    intro hpc _
    rw [hpc] at hs
    exact hs
  case fiq =>
    intro _ _ hunmasked _
    refine MonitorPc.OthersOk.othersRecorded hs ?_
    intro hcrashed
    rw [hstate.masked hcrashed] at hunmasked
    cases hunmasked

/-- What the runs keep about the interrupts other than the kill interrupt. -/
structure System.OthersInv (cpu : DomainIndex) (s : System) : Prop where
  state : StateInv s
  others : s.monitor.OthersOk cpu s.irq

theorem System.OthersInv.step (hs : s.OthersInv cpu)
    (ha : UsesOwnInterrupts cpu s a) (h : s.step cpu a = some t) :
    t.OthersInv cpu where
  state := hs.state.step h
  others := othersOk_step hs.state hs.others ha h

theorem othersInv_of_reachable
    (h : Reachable (System.step cpu) (System.QuietInitial cpu)
      (UsesOwnInterrupts cpu) s) :
    s.OthersInv cpu := by
  refine h.invariant ?_ fun _ _ _ _ hs ha ht => hs.step ha ht
  intro s hs
  refine ⟨.initial hs.toInitial, ?_⟩
  rw [hs.monitor]
  exact hs.quiet

/-- A payload that at most confirms its start lets no other interrupt in. -/
theorem onlyKillReaches_of_run {as : List Action} (hs : s.OthersInv cpu)
    (has : ∀ a ∈ as, a.OnlyConfirms) (hrun : run (System.step cpu) s as = some t) :
    t.OnlyKillReaches cpu := by
  have ht : t.OthersInv cpu :=
    run_preserves_of (fun _ _ _ hs ha h => hs.step ha.usesOwnInterrupts h) hs has hrun
  exact ht.others.onlyKillReaches

end OthersOk

/-- Nothing is enabled after power-on. -/
theorem System.powerOn_quietInitial (cpu : DomainIndex) :
    System.powerOn.QuietInitial cpu where
  toInitial := System.powerOn_initial
  quiet := by
    rintro id - - ⟨hbit, -⟩
    have hzero : System.powerOn.irq.gicd.enabled id = false :=
      BitVec.getLsbD_zero
    rw [hzero] at hbit
    cases hbit

end Bmboot
