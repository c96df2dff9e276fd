import Bmboot.Monitor.Killable

/-!
# The tear-down of a payload's interrupts

When the monitor restarts, `teardownEl1Interrupts` disables the interrupts in
the record that the group-setting path keeps.  Enabling an interrupt does not
enter it in the record, so that an interrupt which was enabled but not
configured since the last start outlives its payload.
-/

namespace Bmboot

namespace Interrupts

/-! ## The record -/

/-- The ids that the record covers. -/
def UserInterrupt (id : ℤ) : Prop :=
  gicMinUserInterruptId ≤ id ∧ id ≤ gicMaxUserInterruptId

instance (id : ℤ) : Decidable (UserInterrupt id) :=
  inferInstanceAs (Decidable (_ ∧ _))

theorem UserInterrupt.nonneg {id : ℤ} (h : UserInterrupt id) : 0 ≤ id := h.1

/-- The interrupt is in the record of those routed to EL1. -/
def recorded (irq : Interrupts) (id : ℤ) : Bool :=
  irq.interruptRoutedToEl1 (id - gicMinUserInterruptId)

section Record

variable (cpu : DomainIndex) (irq : Interrupts) {id id' : ℤ}

/-- Writing the entry of one interrupt. -/
theorem update_recorded (b : Bool) :
    Function.update irq.interruptRoutedToEl1 (id - gicMinUserInterruptId) b
        (id' - gicMinUserInterruptId) =
      if id' = id then b else irq.recorded id' := by
  by_cases hid : id' = id
  · rw [if_pos hid, hid, Function.update_self]
  · have hne : id' - gicMinUserInterruptId ≠ id - gicMinUserInterruptId := by
      omega
    rw [if_neg hid, Function.update_of_ne hne, recorded]

theorem recorded_recordRouting (group : InterruptGroup)
    (h : UserInterrupt id) :
    (irq.recordRouting id group).recorded id' =
      if id' = id then decide (group = .group1IrqEl1)
      else irq.recorded id' := by
  have hrange : id ≥ gicMinUserInterruptId ∧ id ≤ gicMaxUserInterruptId := h
  rw [recordRouting, if_pos hrange]
  exact irq.update_recorded _

theorem recorded_setGroupForInterruptChannel (group : InterruptGroup)
    (h : UserInterrupt id) :
    (irq.setGroupForInterruptChannel id group).recorded id' =
      if id' = id then decide (group = .group1IrqEl1)
      else irq.recorded id' := by
  unfold setGroupForInterruptChannel
  rw [recorded_recordRouting _ _ h]
  rfl

/-- A configuration that is not refused enters the interrupt in the record. -/
theorem recorded_smcConfigure (priority : ℤ) (h : UserInterrupt id) :
    (irq.smcConfigure cpu id priority).recorded id' = true ↔
      (PayloadPriority priority ∧ 16 ≤ id ∧ id' = id) ∨
        irq.recorded id' = true := by
  have hgroup : (irq.setGroupForInterruptChannel id .group1IrqEl1).recorded
      id' = if id' = id then true else irq.recorded id' :=
    irq.recorded_setGroupForInterruptChannel .group1IrqEl1 h
  rw [smcConfigure]
  split_ifs with hrefused hppi hspi
  · have hp := not_payloadPriority_iff.mpr hrefused
    simp [hp]
  · have hp : PayloadPriority priority :=
      not_not.mp fun h => hrefused (not_payloadPriority_iff.mp h)
    have hsame : (irq.configurePrivatePeripheralInterrupt id .group1IrqEl1
        priority).recorded id' =
          (irq.setGroupForInterruptChannel id .group1IrqEl1).recorded id' := rfl
    rw [hsame, hgroup]
    by_cases hid : id' = id <;> simp [hid, hp, hppi.1]
  · have hp : PayloadPriority priority :=
      not_not.mp fun h => hrefused (not_payloadPriority_iff.mp h)
    have hge : 16 ≤ id := by omega
    have hsame : (irq.configureSharedPeripheralInterruptAndRouteToCpu id .edge
        cpu.cpuIndex .group1IrqEl1 priority).recorded id' =
          (irq.setGroupForInterruptChannel id .group1IrqEl1).recorded id' := rfl
    rw [hsame, hgroup]
    by_cases hid : id' = id <;> simp [hid, hp, hge]
  · have hlt : ¬16 ≤ id := by omega
    simp [hlt]

/-- The monitor's own set-up records nothing. -/
theorem recorded_of_recorded_setupInterrupts
    (h : (setupInterrupts cpu irq).recorded id = true) :
    irq.recorded id = true := by
  have huser : UserInterrupt cpu.ipiInterruptId := by
    cases cpu <;> decide
  have hsame : (setupInterrupts cpu irq).recorded id =
      (irq.enableCpuInterrupts.setGroupForInterruptChannel cpu.ipiInterruptId
        .group0FiqEl3).recorded id := rfl
  rw [hsame, recorded_setGroupForInterruptChannel _ _ huser] at h
  split_ifs at h with hid
  · exact absurd h (by decide)
  · exact h

/-- The monitor's own set-up leaves the other interrupts as they are. -/
theorem config_setupInterrupts_of_ne
    (hid : 0 ≤ id) (hne : id ≠ cpu.ipiInterruptId) :
    (setupInterrupts cpu irq).config id = irq.config id := by
  have hipi := cpu.ipiInterruptId_nonneg
  have hsame : (setupInterrupts cpu irq).config id =
      ((irq.enableCpuInterrupts.configureSharedPeripheralInterruptAndRouteToCpu
        cpu.ipiInterruptId .unchanged cpu.cpuIndex .group0FiqEl3
        priorityM7Max).enableInterrupt cpu.ipiInterruptId).config id := rfl
  have hconfig :=
    irq.enableCpuInterrupts.config_configureSharedPeripheralInterruptAndRouteToCpu
      .unchanged cpu.cpuIndex .group0FiqEl3 priorityM7Max hipi hid
  rw [if_neg hne] at hconfig
  rw [hsame, config_enableInterrupt _ hipi hid, hconfig]
  have henabled := congrArg Config.enabled hconfig
  have hsame : irq.enableCpuInterrupts.config id = irq.config id := rfl
  rw [hsame] at henabled ⊢
  simp only [config] at henabled ⊢
  simp [henabled, hne]

/-! ## The loop -/

theorem teardownInterrupt_of_recorded (h : irq.recorded id = true) :
    irq.teardownInterrupt id =
      { irq.disableInterrupt id with
        interruptRoutedToEl1 := Function.update irq.interruptRoutedToEl1
          (id - gicMinUserInterruptId) false } :=
  if_pos h

theorem teardownInterrupt_of_not_recorded (h : ¬irq.recorded id = true) :
    irq.teardownInterrupt id = irq :=
  if_neg h

theorem recorded_teardownInterrupt :
    (irq.teardownInterrupt id).recorded id' =
      (irq.recorded id' && !decide (id' = id)) := by
  by_cases hrec : irq.recorded id = true
  · rw [teardownInterrupt_of_recorded _ hrec]
    refine (update_recorded (irq.disableInterrupt id) false).trans ?_
    by_cases hid : id' = id
    · simp [hid]
    · rw [if_neg hid, decide_eq_false hid, Bool.not_false, Bool.and_true]
      rfl
  · rw [teardownInterrupt_of_not_recorded _ hrec]
    by_cases hid : id' = id
    · subst hid
      simp [hrec]
    · simp [hid]

theorem enabled_teardownInterrupt (h : 0 ≤ id) (h' : 0 ≤ id') :
    (irq.teardownInterrupt id).gicd.enabled id' =
      (irq.gicd.enabled id' && !(irq.recorded id' && decide (id' = id))) := by
  by_cases hrec : irq.recorded id = true
  · rw [teardownInterrupt_of_recorded _ hrec]
    refine (irq.gicd.enabled_clearEnable h h').trans ?_
    by_cases hid : id' = id
    · simp [hid, hrec]
    · simp [hid]
  · rw [teardownInterrupt_of_not_recorded _ hrec]
    by_cases hid : id' = id
    · subst hid
      simp [hrec]
    · simp [hid]

theorem recorded_teardownLoop (n : ℕ) :
    (teardownLoop n id irq).recorded id' =
      (irq.recorded id' && !decide (id ≤ id' ∧ id' < id + n)) := by
  induction n generalizing id irq with
  | zero =>
      have hempty : ¬(id ≤ id' ∧ id' < id + (0 : ℕ)) := by omega
      simp only [teardownLoop, hempty, decide_false, Bool.not_false,
        Bool.and_true]
  | succ n ih =>
      have hsplit : (id ≤ id' ∧ id' < id + (n + 1 : ℕ)) ↔
          id' = id ∨ id + 1 ≤ id' ∧ id' < id + 1 + n := by omega
      rw [teardownLoop, ih, recorded_teardownInterrupt,
        decide_eq_decide.mpr hsplit, Bool.decide_or, Bool.not_or,
        Bool.and_assoc]

/-- The loop disables exactly the recorded interrupts in its range. -/
theorem enabled_teardownLoop (n : ℕ) (h : 0 ≤ id) (h' : 0 ≤ id') :
    (teardownLoop n id irq).gicd.enabled id' =
      (irq.gicd.enabled id' &&
        !(irq.recorded id' && decide (id ≤ id' ∧ id' < id + n))) := by
  induction n generalizing id irq with
  | zero =>
      have hempty : ¬(id ≤ id' ∧ id' < id + (0 : ℕ)) := by omega
      simp only [teardownLoop, hempty, decide_false, Bool.and_false,
        Bool.not_false, Bool.and_true]
  | succ n ih =>
      have hsplit : (id ≤ id' ∧ id' < id + (n + 1 : ℕ)) ↔
          id' = id ∨ id + 1 ≤ id' ∧ id' < id + 1 + n := by omega
      rw [teardownLoop, ih _ (by omega), enabled_teardownInterrupt _ h h',
        recorded_teardownInterrupt, decide_eq_decide.mpr hsplit,
        Bool.decide_or]
      by_cases hid : id' = id <;> simp [hid]

/-- After the tear-down, an interrupt is enabled if it was and is neither the
timer nor recorded. -/
theorem enabled_teardownEl1Interrupts (h : UserInterrupt id) :
    irq.teardownEl1Interrupts.gicd.enabled id = true ↔
      irq.gicd.enabled id = true ∧ id ≠ cntpnsInterruptId ∧
        irq.recorded id = false := by
  have hzero : 0 ≤ gicMinUserInterruptId := by decide
  have htimer : 0 ≤ cntpnsInterruptId := by decide
  have hrange : gicMinUserInterruptId ≤ id ∧ id < gicMinUserInterruptId +
      (gicMaxUserInterruptId - gicMinUserInterruptId + 1).toNat := by
    obtain ⟨hmin, hmax⟩ := h
    omega
  rw [teardownEl1Interrupts, enabled_teardownLoop _ _ hzero h.nonneg,
    decide_eq_true hrange]
  have hdisabled : (irq.disableInterrupt cntpnsInterruptId).gicd.enabled id =
      (irq.gicd.enabled id && !decide (id = cntpnsInterruptId)) :=
    irq.gicd.enabled_clearEnable htimer h.nonneg
  change ((irq.disableInterrupt cntpnsInterruptId).gicd.enabled id &&
    !(irq.recorded id && true)) = true ↔ _
  rw [hdisabled]
  simp [and_assoc]

/-- The tear-down leaves the groups as they are. -/
theorem inGroup1_teardownEl1Interrupts :
    irq.teardownEl1Interrupts.gicd.inGroup1 id = irq.gicd.inGroup1 id := by
  have hloop : ∀ (n : ℕ) (k : ℤ) (irq : Interrupts),
      (teardownLoop n k irq).gicd.igroupr = irq.gicd.igroupr := by
    intro n
    induction n with
    | zero =>
        intro k irq
        rfl
    | succ n ih =>
        intro k irq
        rw [teardownLoop, ih]
        by_cases hrec : irq.recorded k = true
        · rw [teardownInterrupt_of_recorded _ hrec]
          rfl
        · rw [teardownInterrupt_of_not_recorded _ hrec]
  rw [Gicd.inGroup1, teardownEl1Interrupts, hloop]
  rfl

theorem recorded_teardownEl1Interrupts (h : UserInterrupt id) :
    irq.teardownEl1Interrupts.recorded id = false := by
  have hrange : gicMinUserInterruptId ≤ id ∧ id < gicMinUserInterruptId +
      (gicMaxUserInterruptId - gicMinUserInterruptId + 1).toNat := by
    obtain ⟨hmin, hmax⟩ := h
    omega
  rw [teardownEl1Interrupts, recorded_teardownLoop, decide_eq_true hrange,
    Bool.not_true, Bool.and_false]

end Record

end Interrupts

/-- The interrupt hardware as a starting monitor finds it, with nothing in the
record. -/
structure MonitorStart where
  irq : Interrupts
  recorded_eq_false : ∀ id, Interrupts.UserInterrupt id →
    irq.recorded id = false

namespace MonitorStart

def powerOn : MonitorStart where
  irq := .reset
  recorded_eq_false := fun _ _ => rfl

/-- The restart by the kill interrupt, after the tear-down. -/
def restart (irq : Interrupts) : MonitorStart where
  irq := irq.teardownEl1Interrupts
  recorded_eq_false := fun _ h => irq.recorded_teardownEl1Interrupts h

/-- The core once the monitor has set up its interrupts. -/
def core (s : MonitorStart) (cpu : DomainIndex) (ipc : IpcBlock) : Core where
  ipc := ipc
  irq := Interrupts.setupInterrupts cpu s.irq

/-- A restart leaves the groups of the payload's interrupts as they are. -/
theorem inGroup1_restart_core
    (cpu : DomainIndex) (irq : Interrupts) (ipc : IpcBlock) {id : ℤ}
    (hid : 0 ≤ id) (hne : id ≠ cpu.ipiInterruptId) :
    ((restart irq).core cpu ipc).irq.gicd.inGroup1 id =
      irq.gicd.inGroup1 id := by
  have hconfig := Interrupts.config_setupInterrupts_of_ne cpu
    irq.teardownEl1Interrupts hid hne
  rw [Interrupts.config, Interrupts.config, Interrupts.Config.mk.injEq]
    at hconfig
  simp only [core, restart]
  rw [hconfig.2.1, Interrupts.inGroup1_teardownEl1Interrupts]

end MonitorStart

/-! ## Calls -/

namespace SmcCall

/-- The call enables interrupt `id`. -/
def Enables (c : SmcCall) (id : ℤ) : Prop :=
  c.function = smcZynqmpGicIrqEnable ∧ id = c.interruptId

/-- The call disables interrupt `id`. -/
def Disables (c : SmcCall) (id : ℤ) : Prop :=
  c.function = smcZynqmpGicIrqDisable ∧ id = c.interruptId

variable {cpu : DomainIndex} {core : Core} {c : SmcCall} {id : ℤ}

theorem Defined.user_of_mem
    (hc : c.Defined) (hf : c.function ∈ interruptFunctions) :
    Interrupts.UserInterrupt c.interruptId :=
  hc.id_range hf

theorem Defined.user_of_enables
    (hc : c.Defined) (henables : c.Enables id) :
    Interrupts.UserInterrupt id := by
  rw [henables.2]
  exact hc.id_range (by simp [henables.1, interruptFunctions])

theorem enabled_apply (hc : c.Defined) (hid : 0 ≤ id) :
    (c.apply cpu core).irq.gicd.enabled id = true ↔
      c.Enables id ∨ core.irq.gicd.enabled id = true ∧ ¬c.Disables id := by
  rw [apply_irq]
  split_ifs with hconfigure hdisable henable
  · have hnonneg :=
      hc.interruptId_nonneg (by simp [hconfigure, interruptFunctions])
    have hconfig := core.irq.config_smcConfigure cpu c.priority hnonneg hid
    have hsame : (core.irq.smcConfigure cpu c.interruptId
        c.priority).gicd.enabled id = core.irq.gicd.enabled id := by
      have henabled := congrArg Interrupts.Config.enabled hconfig
      split_ifs at henabled <;> exact henabled
    have hnoEnable : ¬c.Enables id := fun h =>
      absurd (hconfigure.symm.trans h.1) (by decide)
    have hnoDisable : ¬c.Disables id := fun h =>
      absurd (hconfigure.symm.trans h.1) (by decide)
    simp [hsame, hnoEnable, hnoDisable]
  · have hnonneg :=
      hc.interruptId_nonneg (by simp [hdisable, interruptFunctions])
    have hnoEnable : ¬c.Enables id := fun h =>
      absurd (hdisable.symm.trans h.1) (by decide)
    have henabled : (core.irq.disableInterrupt c.interruptId).gicd.enabled id =
        (core.irq.gicd.enabled id && !decide (id = c.interruptId)) :=
      core.irq.gicd.enabled_clearEnable hnonneg hid
    rw [henabled]
    simp [hnoEnable, Disables, hdisable]
  · have hnonneg :=
      hc.interruptId_nonneg (by simp [henable, interruptFunctions])
    have hnoDisable : ¬c.Disables id := fun h =>
      absurd (henable.symm.trans h.1) (by decide)
    have henabled : (core.irq.enableInterrupt c.interruptId).gicd.enabled id =
        (core.irq.gicd.enabled id || decide (id = c.interruptId)) :=
      congrArg Interrupts.Config.enabled
        (core.irq.config_enableInterrupt hnonneg hid)
    rw [henabled]
    simp [hnoDisable, Enables, henable, or_comm]
  · simp [Enables, Disables, hdisable, henable]

theorem recorded_apply (hc : c.Defined) :
    (c.apply cpu core).irq.recorded id = true ↔
      c.Configures id ∨ core.irq.recorded id = true := by
  rw [apply_irq]
  split_ifs with hconfigure hdisable henable
  · have huser := hc.user_of_mem (by simp [hconfigure, interruptFunctions])
    rw [Interrupts.recorded_smcConfigure _ _ _ huser]
    simp [Configures, hconfigure]
  · have hsame : (core.irq.disableInterrupt c.interruptId).recorded id =
        core.irq.recorded id := rfl
    simp [hsame, Configures, hconfigure]
  · have hsame : (core.irq.enableInterrupt c.interruptId).recorded id =
        core.irq.recorded id := rfl
    simp [hsame, Configures, hconfigure]
  · simp [Configures, hconfigure]

end SmcCall

/-- The last call to enable or disable interrupt `id` enables it. -/
def LeftEnabled (calls : List SmcCall) (id : ℤ) : Prop :=
  ∃ before c after, calls = before ++ c :: after ∧ c.Enables id ∧
    ∀ c' ∈ after, ¬c'.Disables id

section Calls

variable {cpu : DomainIndex} {core : Core} {calls : List SmcCall} {id : ℤ}

theorem leftEnabled_concat {c : SmcCall} :
    LeftEnabled (calls ++ [c]) id ↔
      c.Enables id ∨ LeftEnabled calls id ∧ ¬c.Disables id := by
  constructor
  · rintro ⟨before, d, after, heq, henables, hafter⟩
    rcases List.eq_nil_or_concat after with rfl | ⟨after, e, rfl⟩
    · have hlast := (List.append_inj' heq rfl).2
      rw [List.cons.injEq] at hlast
      exact .inl (hlast.1 ▸ henables)
    · rw [List.concat_eq_append, ← List.cons_append, ← List.append_assoc]
        at heq
      obtain ⟨hinit, hlast⟩ := List.append_inj' heq rfl
      rw [List.cons.injEq] at hlast
      refine .inr ⟨⟨before, d, after, hinit, henables, ?_⟩, ?_⟩
      · intro c' hc'
        exact hafter c' (by simp [hc'])
      · rw [hlast.1]
        exact hafter e (by simp)
  · rintro (henables | ⟨⟨before, d, after, rfl, henables, hafter⟩, hnot⟩)
    · exact ⟨calls, c, [], by simp, henables, by simp⟩
    · refine ⟨before, d, after ++ [c], by simp, henables, ?_⟩
      intro c' hc'
      rcases List.mem_append.mp hc' with hmem | hmem
      · exact hafter c' hmem
      · rw [List.mem_singleton.mp hmem]
        exact hnot

theorem leftEnabled_of_not_disables
    (henabled : ∃ c ∈ calls, c.Enables id)
    (hnot : ∀ c ∈ calls, ¬c.Disables id) : LeftEnabled calls id := by
  obtain ⟨c, hc, henables⟩ := henabled
  obtain ⟨before, after, rfl⟩ := List.append_of_mem hc
  exact ⟨before, c, after, rfl, henables, fun c' hc' => hnot c' (by simp [hc'])⟩

theorem LeftEnabled.exists_enables (h : LeftEnabled calls id) :
    ∃ c ∈ calls, c.Enables id := by
  obtain ⟨before, c, after, rfl, henables, -⟩ := h
  exact ⟨c, by simp, henables⟩

/-- An interrupt is enabled after a sequence of calls if the calls leave it
so, or if it was enabled before and they do not disable it. -/
theorem enabled_runSmcs
    (hdefined : ∀ c ∈ calls, c.Defined) (hid : 0 ≤ id) :
    (runSmcs cpu core calls).irq.gicd.enabled id = true ↔
      LeftEnabled calls id ∨
        core.irq.gicd.enabled id = true ∧ ∀ c ∈ calls, ¬c.Disables id := by
  induction calls using List.reverseRecOn with
  | nil => simp [runSmcs, LeftEnabled]
  | append_singleton calls c ih =>
      have ih := ih fun c' hc' => hdefined c' (by simp [hc'])
      rw [runSmcs_concat, SmcCall.enabled_apply (hdefined c (by simp)) hid, ih,
        leftEnabled_concat, List.forall_mem_append, List.forall_mem_singleton]
      tauto

/-- The record after a sequence of calls holds what they configured. -/
theorem recorded_runSmcs (hdefined : ∀ c ∈ calls, c.Defined) :
    (runSmcs cpu core calls).irq.recorded id = true ↔
      (∃ c ∈ calls, c.Configures id) ∨ core.irq.recorded id = true := by
  induction calls using List.reverseRecOn with
  | nil => simp [runSmcs]
  | append_singleton calls c ih =>
      have ih := ih fun c' hc' => hdefined c' (by simp [hc'])
      rw [runSmcs_concat, SmcCall.recorded_apply (hdefined c (by simp)), ih]
      simp only [List.mem_append, List.mem_singleton, or_and_right,
        exists_or, exists_eq_left]
      exact (or_assoc.trans or_left_comm).symm

end Calls

/-- After the tear-down, every interrupt that the calls enabled is disabled,
except the interrupt that kills the payload. -/
def NothingSurvives (cpu : DomainIndex) (core : Core)
    (calls : List SmcCall) : Prop :=
  ∀ id, (∃ c ∈ calls, c.Enables id) → id ≠ cpu.ipiInterruptId →
    (runSmcs cpu core calls).irq.teardownEl1Interrupts.gicd.enabled id = false

/-- An interrupt survives the tear-down exactly when the calls leave it
enabled and have not configured it since the monitor started. -/
theorem enabled_teardown_runSmcs
    (cpu : DomainIndex) (s : MonitorStart) (ipc : IpcBlock)
    {calls : List SmcCall} {id : ℤ} (hdefined : ∀ c ∈ calls, c.Defined)
    (henables : ∃ c ∈ calls, c.Enables id) :
    (runSmcs cpu (s.core cpu ipc) calls).irq.teardownEl1Interrupts.gicd.enabled
        id = true ↔
      LeftEnabled calls id ∧ id ≠ cntpnsInterruptId ∧
        ¬∃ c ∈ calls, c.Configures id := by
  have huser : Interrupts.UserInterrupt id := by
    obtain ⟨c, hc, hcid⟩ := henables
    exact (hdefined c hc).user_of_enables hcid
  have hclear : (s.core cpu ipc).irq.recorded id ≠ true := by
    intro hrec
    have hstart := Interrupts.recorded_of_recorded_setupInterrupts cpu s.irq hrec
    exact absurd hstart (by simp [s.recorded_eq_false id huser])
  have henabled : (runSmcs cpu (s.core cpu ipc) calls).irq.gicd.enabled id =
      true ↔ LeftEnabled calls id := by
    rw [enabled_runSmcs hdefined huser.nonneg]
    constructor
    · rintro (hleft | ⟨-, hnot⟩)
      · exact hleft
      · exact leftEnabled_of_not_disables henables hnot
    · exact Or.inl
  have hrecorded : (runSmcs cpu (s.core cpu ipc) calls).irq.recorded id =
      false ↔ ¬∃ c ∈ calls, c.Configures id := by
    rw [← Bool.not_eq_true, recorded_runSmcs hdefined]
    simp [hclear]
  rw [Interrupts.enabled_teardownEl1Interrupts _ huser, henabled, hrecorded]

/-- The tear-down disables all that the payload enabled exactly when every
interrupt left enabled is the timer or has been configured. -/
theorem nothingSurvives_iff
    (cpu : DomainIndex) (s : MonitorStart) (ipc : IpcBlock)
    (calls : List SmcCall) (hdefined : ∀ c ∈ calls, c.Defined) :
    NothingSurvives cpu (s.core cpu ipc) calls ↔
      ∀ id, LeftEnabled calls id → id ≠ cpu.ipiInterruptId →
        id = cntpnsInterruptId ∨ ∃ c ∈ calls, c.Configures id := by
  constructor
  · intro hnothing id hleft hne
    by_contra hnot
    rw [not_or] at hnot
    have henabled := (enabled_teardown_runSmcs cpu s ipc hdefined
      hleft.exists_enables).mpr ⟨hleft, hnot⟩
    rw [hnothing id hleft.exists_enables hne] at henabled
    exact Bool.false_ne_true henabled
  · intro hconfigured id henables hne
    rw [← Bool.not_eq_true,
      enabled_teardown_runSmcs cpu s ipc hdefined henables]
    rintro ⟨hleft, htimer, hnot⟩
    rcases hconfigured id hleft hne with heq | hmem
    · exact htimer heq
    · exact hnot hmem

/-- A payload that configures and enables interrupt 121. -/
def configureAndEnable121 : List SmcCall :=
  [smcCall smcZynqmpGicIrqConfigure 121 0x80,
    smcCall smcZynqmpGicIrqEnable 121 0]

/-- A payload that finds interrupt 121 configured and enables it. -/
def enable121 : List SmcCall :=
  [smcCall smcZynqmpGicIrqEnable 121 0]

theorem configureAndEnable121_defined :
    ∀ c ∈ configureAndEnable121, c.Defined := by
  intro c hc
  simp only [configureAndEnable121, List.mem_cons, List.not_mem_nil,
    or_false] at hc
  rcases hc with rfl | rfl
  · exact ⟨by decide, fun _ => by decide⟩
  · exact ⟨by decide, fun _ => by decide⟩

theorem enable121_defined : ∀ c ∈ enable121, c.Defined := by
  intro c hc
  rw [List.mem_singleton.mp hc]
  exact ⟨by decide, fun _ => by decide⟩

/-- What a payload configures and enables is torn down with it. -/
theorem nothingSurvives_configureAndEnable121 :
    NothingSurvives .cpu1 (MonitorStart.powerOn.core .cpu1 .zero)
      configureAndEnable121 := by
  refine (nothingSurvives_iff .cpu1 .powerOn .zero configureAndEnable121
    configureAndEnable121_defined).mpr ?_
  intro id hleft _
  obtain ⟨c, hc, -, hid⟩ := hleft.exists_enables
  have h121 : id = 121 := by
    simp only [configureAndEnable121, List.mem_cons, List.not_mem_nil,
      or_false] at hc
    rcases hc with rfl | rfl
    · exact hid.trans (by decide)
    · exact hid.trans (by decide)
  refine .inr ⟨smcCall smcZynqmpGicIrqConfigure 121 0x80, ?_, ?_⟩
  · simp [configureAndEnable121]
  · rw [h121]
    exact ⟨by decide, by decide, by decide, by decide⟩

/-- The monitor restarts after a payload that configured interrupt 121. -/
def startAfterFirstPayload : MonitorStart :=
  MonitorStart.restart (runSmcs .cpu1 (MonitorStart.powerOn.core .cpu1 .zero)
    configureAndEnable121).irq

/-- A second payload enables interrupt 121, which is still in group 1, and is
killed: the interrupt stays enabled. -/
theorem not_nothingSurvives_enable121 :
    (∀ c ∈ enable121, c.Defined) ∧
      (startAfterFirstPayload.core .cpu1 .zero).irq.gicd.inGroup1 121 =
        true ∧
      ¬NothingSurvives .cpu1 (startAfterFirstPayload.core .cpu1 .zero)
        enable121 := by
  refine ⟨enable121_defined, ?_, ?_⟩
  · have hgroup : (runSmcs .cpu1 (MonitorStart.powerOn.core .cpu1 .zero)
        configureAndEnable121).irq.gicd.inGroup1 121 = true := by
      decide
    exact (MonitorStart.inGroup1_restart_core .cpu1 _ .zero (by decide)
      (by decide)).trans hgroup
  · intro hnothing
    have henables : ∃ c ∈ enable121, c.Enables 121 :=
      ⟨smcCall smcZynqmpGicIrqEnable 121 0, by simp [enable121], by decide,
        by decide⟩
    have hsurvives := (enabled_teardown_runSmcs .cpu1 startAfterFirstPayload
      .zero enable121_defined henables).mpr
        ⟨⟨[], _, [], rfl, ⟨by decide, by decide⟩, by simp⟩, by decide, ?_⟩
    · rw [hnothing 121 henables (by decide)] at hsurvives
      exact Bool.false_ne_true hsurvives
    · rintro ⟨c, hc, hconfigures, -⟩
      rw [List.mem_singleton.mp hc] at hconfigures
      exact absurd hconfigures (by decide)

end Bmboot
