import Bmboot.Monitor.Teardown

/-!
# Interrupts one by one

The registers of the distributor hold the attributes of many interrupts in one
word.  Still, each operation of the monitor treats the interrupts independently:
an interrupt is a small state machine of its own, and the hardware together with
the monitor's record is the product of these machines.
-/

namespace Bmboot

/-- One interrupt: how the distributor is set up for it, and whether the monitor
has recorded it. -/
structure InterruptLine where
  config : Interrupts.Config
  recorded : Bool

/-- What the monitor does on behalf of a payload, and when it restarts. -/
inductive InterruptAction
  | configure (id priority : ℤ)
  | enable (id : ℤ)
  | disable (id : ℤ)
  | restart

namespace InterruptAction

/-- The calls are about interrupts of the platform. -/
def Defined : InterruptAction → Prop
  | .configure id _ | .enable id | .disable id => Interrupts.UserInterrupt id
  | .restart => True

instance (a : InterruptAction) : Decidable a.Defined := by
  cases a <;> unfold Defined <;> infer_instance

/-- The handling of the calls in `handleSmc`; a restarting monitor tears down
what the payload has set up and sets up its own interrupts. -/
def act (cpu : DomainIndex) (irq : Interrupts) : InterruptAction → Interrupts
  | .configure id priority => irq.smcConfigure cpu id priority
  | .enable id => irq.enableInterrupt id
  | .disable id => irq.disableInterrupt id
  | .restart => Interrupts.setupInterrupts cpu irq.teardownEl1Interrupts

end InterruptAction

namespace InterruptLine

/-- The monitor sets up its own interrupt. -/
def setup (cpu : DomainIndex) (id : ℤ) (l : InterruptLine) : InterruptLine :=
  if id = cpu.ipiInterruptId then
    { config :=
        { enabled := true, inGroup1 := false, targets := 1#8 <<< cpu.cpuIndex
          priority := 0x00 }
      recorded := false }
  else l

/-- The tear-down disables the timer and what is recorded. -/
def teardown (id : ℤ) (l : InterruptLine) : InterruptLine where
  config :=
    { l.config with
      enabled :=
        l.config.enabled && !(l.recorded || decide (id = cntpnsInterruptId)) }
  recorded := false

/-- What an action does to interrupt `id`. -/
def act (cpu : DomainIndex) (id : ℤ) (l : InterruptLine) :
    InterruptAction → InterruptLine
  | .configure id' priority =>
      if PayloadPriority priority ∧ 16 ≤ id' ∧ id = id' then
        { config :=
            { l.config with
              inGroup1 := true
              targets :=
                if 32 ≤ id' then 1#8 <<< cpu.cpuIndex else l.config.targets
              priority := BitVec.ofInt 8 priority }
          recorded := true }
      else l
  | .enable id' =>
      { l with
        config :=
          { l.config with enabled := l.config.enabled || decide (id = id') } }
  | .disable id' =>
      { l with
        config :=
          { l.config with enabled := l.config.enabled && !decide (id = id') } }
  | .restart => (l.teardown id).setup cpu id

end InterruptLine

namespace Interrupts

/-- Interrupt `id` on its own. -/
def line (irq : Interrupts) (id : ℤ) : InterruptLine where
  config := irq.config id
  recorded := irq.recorded id

variable (cpu : DomainIndex) (irq : Interrupts) {id id' : ℤ}

/-- The tear-down changes nothing in the distributor but enable bits. -/
theorem teardownLoop_gicd (n : ℕ) (k : ℤ) (irq : Interrupts) :
    ∃ enabler, (teardownLoop n k irq).gicd =
      { irq.gicd with enabler := enabler } := by
  induction n generalizing k irq with
  | zero => exact ⟨irq.gicd.enabler, rfl⟩
  | succ n ih =>
      obtain ⟨enabler, h⟩ := ih (k + 1) (irq.teardownInterrupt k)
      refine ⟨enabler, ?_⟩
      rw [teardownLoop, h]
      by_cases hrec : irq.recorded k = true
      · rw [teardownInterrupt_of_recorded _ hrec]
        rfl
      · rw [teardownInterrupt_of_not_recorded _ hrec]

theorem teardownEl1Interrupts_gicd :
    ∃ enabler, irq.teardownEl1Interrupts.gicd =
      { irq.gicd with enabler := enabler } :=
  teardownLoop_gicd _ _ (irq.disableInterrupt cntpnsInterruptId).clearNsapr0

theorem line_setupInterrupts (h : UserInterrupt id) :
    (setupInterrupts cpu irq).line id = (irq.line id).setup cpu id := by
  have hipi : UserInterrupt cpu.ipiInterruptId := by
    cases cpu <;> decide
  have hrecorded : (setupInterrupts cpu irq).recorded id =
      if id = cpu.ipiInterruptId then false else irq.recorded id :=
    irq.enableCpuInterrupts.recorded_setGroupForInterruptChannel .group0FiqEl3
      hipi
  rw [InterruptLine.setup]
  split
  next heq =>
    rw [if_pos heq] at hrecorded
    rw [line, hrecorded, heq]
    rw [(ipiConfigured_iff_config cpu _).mp (ipiConfigured_setupInterrupts cpu irq)]
  next hne =>
    rw [if_neg hne] at hrecorded
    rw [line, hrecorded, config_setupInterrupts_of_ne cpu irq h.nonneg hne]
    rfl

theorem line_teardownEl1Interrupts (h : UserInterrupt id) :
    irq.teardownEl1Interrupts.line id = (irq.line id).teardown id := by
  obtain ⟨enabler, hgicd⟩ := irq.teardownEl1Interrupts_gicd
  have henabled : irq.teardownEl1Interrupts.gicd.enabled id =
      (irq.gicd.enabled id &&
        !(irq.recorded id || decide (id = cntpnsInterruptId))) := by
    rw [Bool.eq_iff_iff, irq.enabled_teardownEl1Interrupts h]
    simp [and_comm]
  rw [line, config, henabled, irq.recorded_teardownEl1Interrupts h, hgicd]
  rfl

theorem line_smcConfigure (priority : ℤ) (h : UserInterrupt id)
    (h' : UserInterrupt id') :
    (irq.smcConfigure cpu id priority).line id' =
      (irq.line id').act cpu id' (.configure id priority) := by
  have hrecorded : (irq.smcConfigure cpu id priority).recorded id' = true ↔
      (PayloadPriority priority ∧ 16 ≤ id ∧ id' = id) ∨
        irq.recorded id' = true :=
    irq.recorded_smcConfigure cpu priority h
  rw [line, config_smcConfigure cpu irq priority h.nonneg h'.nonneg,
    InterruptLine.act]
  split
  next haccepted =>
    rw [hrecorded.mpr (.inl haccepted)]
    rfl
  next hrefused =>
    have hsame : (irq.smcConfigure cpu id priority).recorded id' =
        irq.recorded id' := by
      rw [Bool.eq_iff_iff, hrecorded]
      exact or_iff_right hrefused
    rw [hsame]
    rfl

/-- An operation on the hardware is what it is on each interrupt. -/
theorem line_act {a : InterruptAction} (ha : a.Defined) (h : UserInterrupt id) :
    (a.act cpu irq).line id = (irq.line id).act cpu id a := by
  cases a with
  | configure id' priority => exact irq.line_smcConfigure cpu priority ha h
  | enable id' =>
      rw [InterruptAction.act, line, config_enableInterrupt irq ha.1 h.nonneg]
      rfl
  | disable id' =>
      rw [InterruptAction.act, line, config_disableInterrupt irq ha.1 h.nonneg]
      rfl
  | restart =>
      rw [InterruptAction.act, line_setupInterrupts cpu _ h,
        irq.line_teardownEl1Interrupts h]
      rfl

end Interrupts

end Bmboot
