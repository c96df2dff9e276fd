import Bmboot.Payload.Preemption

/-!
# Interrupts and their handlers

`IRQInterrupt` (`vectors_el1.cpp`) calls the function that the payload has set up
for the interrupt, and reports a crash if there is none.  The table of functions
is the payload's own and starts empty, while groups, targets and some enable bits
outlive a payload.
-/

namespace Bmboot

open StepSystem

/-- The distributor forwards the interrupt to the core as IRQ when it is pending. -/
structure Interrupts.Config.DeliveredTo (c : Interrupts.Config)
    (cpu : DomainIndex) (id : ℤ) : Prop where
  enabled : c.enabled = true
  group : c.inGroup1 = true
  target : id < 32 ∨ c.targets.getLsbD cpu.cpuIndex = true

/-- A payload with its table `user_interrupt_handlers`: an entry tells whether it
holds a function. -/
structure Dispatching (binaryPoint : ℕ) where
  core : Preemptible binaryPoint
  handlers : ℤ → Bool

/-- The table after a step; set-ups come with a function or an empty one, and the
boot code of the next payload clears the table. -/
def PreemptAction.handlersAfter (handlers : ℤ → Bool) :
    PreemptAction (PayloadInterruptPriority × Bool) → ℤ → Bool
  | .configure id p =>
      Function.update handlers (id - gicMinUserInterruptId) p.2
  | .kill _ _ _ => fun _ => false
  | _ => handlers

/-- What a step asks of the monitor's interrupt functions. -/
def PreemptAction.interruptAction :
    PreemptAction (PayloadInterruptPriority × Bool) → Option InterruptAction
  | .configure id p => some (.configure id p.1.code.toInt)
  | .enable id => some (.enable id)
  | .disable id => some (.disable id)
  | .kill _ _ _ => some .restart
  | _ => none

/-- `setupInterruptHandling` changes the table so. -/
theorem handlers_setupInterruptHandling
    (cpu : DomainIndex) (mem : BitVec 64 → UInt8) (saved : Aarch64Regs)
    (r : PayloadRuntime Bool) (interruptId : BitVec 32)
    (p : PayloadInterruptPriority) (handler : Bool)
    (hid : Interrupts.UserInterrupt interruptId.toInt) :
    (setupInterruptHandling cpu mem saved r interruptId p.code
        handler).state.handlers =
      (PreemptAction.configure interruptId.toInt (p, handler)).handlersAfter
        r.handlers := by
  have hrange : ¬(interruptId.toInt < gicMinUserInterruptId ∨
      interruptId.toInt > gicMaxUserInterruptId) := by
    rw [not_or, Int.not_lt, Int.not_lt]
    exact hid
  rw [setupInterruptHandling, if_neg hrange]
  rfl

namespace Dispatching

variable {binaryPoint : ℕ}

/-- There is a function for the interrupt. -/
def handles (s : Dispatching binaryPoint) (id : ℤ) : Bool :=
  s.handlers (id - gicMinUserInterruptId)

/-- `IRQInterrupt` looks the interrupt up in the table. -/
def Dispatches (s : Dispatching binaryPoint) :
    PreemptAction (PayloadInterruptPriority × Bool) → Prop
  | .acknowledge id registered => registered = s.handles id
  | _ => True

instance (s : Dispatching binaryPoint)
    (a : PreemptAction (PayloadInterruptPriority × Bool)) :
    Decidable (s.Dispatches a) := by
  cases a <;> unfold Dispatches <;> infer_instance

def step (cpu : DomainIndex) (s : Dispatching binaryPoint)
    (a : PreemptAction (PayloadInterruptPriority × Bool)) :
    Option (Dispatching binaryPoint) :=
  if s.Dispatches a then
    (s.core.step cpu (fun p => p.1.code.toInt) a).map fun core =>
      { core := core, handlers := a.handlersAfter s.handlers }
  else none

/-- The first payload of a monitor that has just set up its interrupts. -/
def boot (binaryPoint : ℕ) (cpu : DomainIndex) (irq : Interrupts) (base : ℤ)
    (frames : ℤ → Aarch64FpRegs) (regs : Aarch64FpRegs) :
    Dispatching binaryPoint where
  core := .boot binaryPoint cpu irq base frames regs
  handlers := fun _ => false

/-- A first payload has just booted, and no interrupt can reach it. -/
def Booted (cpu : DomainIndex) (s : Dispatching binaryPoint) : Prop :=
  ∃ (start : MonitorStart) (base : ℤ) (frames : ℤ → Aarch64FpRegs)
    (regs : Aarch64FpRegs),
    s = boot binaryPoint cpu start.irq base frames regs ∧
      ∀ id, Interrupts.UserInterrupt id →
        ¬(start.irq.config id).DeliveredTo cpu id

/-- The payload has set up every interrupt that can reach it, with a function for
it, and it will be torn down. -/
def Prepared (cpu : DomainIndex) (s : Dispatching binaryPoint) : Prop :=
  ∀ id, Interrupts.UserInterrupt id →
    (s.core.irq.config id).DeliveredTo cpu id →
      s.handles id = true ∧ s.core.irq.recorded id = true

/-- A set-up of an interrupt that is enabled comes with a function; an interrupt
that the call enables has been set up so, or does not reach the core. -/
def Prepares (cpu : DomainIndex) (s : Dispatching binaryPoint) :
    PreemptAction (PayloadInterruptPriority × Bool) → Prop
  | .configure id p =>
      16 ≤ id → s.core.irq.gicd.enabled id = true → p.2 = true
  | .enable id =>
      s.core.irq.gicd.inGroup1 id = true →
        id < 32 ∨ s.core.irq.gicd.targets id cpu.cpuIndex = true →
          s.handles id = true ∧ s.core.irq.recorded id = true
  | _ => True

/-- The monitor records no software-generated interrupts. -/
def RecordsPeripherals (s : Dispatching binaryPoint) : Prop :=
  ∀ id, Interrupts.UserInterrupt id → s.core.irq.recorded id = true → 16 ≤ id

end Dispatching

/-! ## Single interrupts -/

namespace InterruptLine

variable {cpu : DomainIndex} {id : ℤ} {l : InterruptLine}

/-- A restart leaves no interrupt that reaches the core, except unrecorded ones. -/
theorem recorded_of_restart_delivered
    (h : (l.act cpu id .restart).config.DeliveredTo cpu id) :
    l.config.DeliveredTo cpu id ∧ l.recorded = false := by
  have henabled := h.enabled
  have hgroup := h.group
  have htarget := h.target
  simp only [act, setup] at henabled hgroup htarget
  split at hgroup
  next => exact absurd hgroup Bool.false_ne_true
  next hne =>
    rw [if_neg hne] at henabled htarget
    simp only [teardown, Bool.and_eq_true, Bool.not_eq_true', Bool.or_eq_false_iff]
      at henabled
    exact ⟨⟨henabled.1, hgroup, htarget⟩, henabled.2.1⟩

/-- A set-up that the monitor accepts makes an enabled interrupt reach the core. -/
theorem delivered_configure {p : ℤ} (hp : PayloadPriority p) (hge : 16 ≤ id) :
    (l.act cpu id (.configure id p)).config.DeliveredTo cpu id ↔
      l.config.enabled = true := by
  rw [act, if_pos ⟨hp, hge, rfl⟩]
  constructor
  · intro h
    exact h.enabled
  · intro henabled
    refine ⟨henabled, rfl, ?_⟩
    by_cases hspi : 32 ≤ id
    · refine .inr ?_
      simp only [if_pos hspi]
      cases cpu <;> decide
    · exact .inl (Int.not_le.mp hspi)

end InterruptLine

/-! ## Steps -/

namespace Dispatching

variable {binaryPoint : ℕ} {cpu : DomainIndex} {s t : Dispatching binaryPoint}
  {a : PreemptAction (PayloadInterruptPriority × Bool)}

theorem handles_update (handlers : ℤ → Bool) (b : Bool) (id id' : ℤ) :
    Function.update handlers (id - gicMinUserInterruptId) b
        (id' - gicMinUserInterruptId) =
      if id' = id then b else handlers (id' - gicMinUserInterruptId) := by
  by_cases hid : id' = id
  · rw [if_pos hid, hid, Function.update_self]
  · have hne : id' - gicMinUserInterruptId ≠ id - gicMinUserInterruptId := by
      omega
    rw [if_neg hid, Function.update_of_ne hne]

theorem step_eq_some (h : step cpu s a = some t) :
    s.Dispatches a ∧
      s.core.step cpu (fun p => p.1.code.toInt) a = some t.core ∧
      t.handlers = a.handlersAfter s.handlers := by
  obtain ⟨hdispatch, hmap⟩ := Option.ite_none_right_eq_some.mp h
  obtain ⟨core, hcore, rfl⟩ := Option.map_eq_some_iff.mp hmap
  exact ⟨hdispatch, hcore, rfl⟩

/-- A signalled interrupt is one that reaches the core. -/
theorem delivered_of_signalled {core : Preemptible binaryPoint} {id : ℤ}
    (h : core.Signalled cpu id) : (core.irq.config id).DeliveredTo cpu id :=
  ⟨h.enabled, h.group, h.target⟩

/-- What a step does to each interrupt. -/
theorem line_step (h : step cpu s a = some t) {id : ℤ}
    (hid : Interrupts.UserInterrupt id) :
    t.core.irq.line id =
      a.interruptAction.elim (s.core.irq.line id)
        ((s.core.irq.line id).act cpu id) := by
  obtain ⟨-, hcore, -⟩ := step_eq_some h
  refine Preemptible.step_cases
    (Q := fun a core => core.irq.line id =
      a.interruptAction.elim (s.core.irq.line id)
        ((s.core.irq.line id).act cpu id)) hcore ?_ ?_ ?_ ?_ ?_ ?_ ?_ ?_ ?_ ?_ ?_
  case refine_1 =>
    intro id' p _ hid'
    exact s.core.irq.line_smcConfigure cpu p.1.code.toInt hid' hid
  case refine_2 =>
    intro id' _ hid'
    exact Interrupts.line_act cpu s.core.irq (a := .enable id') hid' hid
  case refine_3 =>
    intro id' _ hid'
    exact Interrupts.line_act cpu s.core.irq (a := .disable id') hid' hid
  case refine_11 =>
    intro base frames regs
    have hirq : (s.core.kill cpu base frames regs).irq =
        InterruptAction.restart.act cpu s.core.irq := by
      simp only [Preemptible.kill, Preemptible.restarted, MonitorStart.restart,
        InterruptAction.act]
    simp only [hirq]
    exact Interrupts.line_act cpu s.core.irq (a := .restart) trivial hid
  all_goals
    intros
    rfl

theorem recordsPeripherals_step (hs : s.RecordsPeripherals)
    (h : step cpu s a = some t) : t.RecordsPeripherals := by
  intro id hid hrecorded
  have hline := congrArg InterruptLine.recorded (line_step h hid)
  have hrec := hline.symm.trans hrecorded
  cases a with
  | configure id' p =>
      simp only [PreemptAction.interruptAction, Option.elim_some,
        InterruptLine.act] at hrec
      split at hrec
      next haccepted => exact haccepted.2.2 ▸ haccepted.2.1
      next => exact hs id hid hrec
  | kill base frames regs =>
      simp only [PreemptAction.interruptAction, Option.elim_some,
        InterruptLine.act, InterruptLine.setup] at hrec
      split at hrec
      next => exact absurd hrec Bool.false_ne_true
      next => exact absurd hrec Bool.false_ne_true
  | _ => exact hs id hid hrec

/-- An interrupt that a step treats as before, and whose entry stays, is no
worse prepared for. -/
theorem prepared_of_same (hp : s.Prepared cpu) {id : ℤ}
    (hid : Interrupts.UserInterrupt id)
    (hline : t.core.irq.line id = s.core.irq.line id)
    (hhandles : t.handles id = s.handles id)
    (h : (t.core.irq.config id).DeliveredTo cpu id) :
    t.handles id = true ∧ t.core.irq.recorded id = true := by
  have hconfig : t.core.irq.config id = s.core.irq.config id :=
    congrArg InterruptLine.config hline
  have hrecorded : t.core.irq.recorded id = s.core.irq.recorded id :=
    congrArg InterruptLine.recorded hline
  rw [hhandles, hrecorded]
  exact hp id hid (hconfig ▸ h)

theorem user_of_configure {id : ℤ} {p : PayloadInterruptPriority × Bool}
    (h : step cpu s (.configure id p) = some t) : Interrupts.UserInterrupt id :=
  (Preemptible.call_eq_some_iff.mp (step_eq_some h).2.1).2.1

theorem user_of_enable {id : ℤ} (h : step cpu s (.enable id) = some t) :
    Interrupts.UserInterrupt id :=
  (Preemptible.call_eq_some_iff.mp (step_eq_some h).2.1).2.1

/-- A set-up is fine if it gives an enabled interrupt a function. -/
theorem prepared_configure_iff {id : ℤ} {p : PayloadInterruptPriority × Bool}
    (hs : s.RecordsPeripherals) (hp : s.Prepared cpu)
    (h : step cpu s (.configure id p) = some t) :
    t.Prepared cpu ↔ s.Prepares cpu (.configure id p) := by
  have hid := user_of_configure h
  obtain ⟨-, -, hhandlers⟩ := step_eq_some h
  have hhandles : ∀ id', t.handles id' =
      if id' = id then p.2 else s.handles id' := by
    intro id'
    rw [handles, hhandlers]
    exact handles_update s.handlers p.2 id id'
  have hself : t.core.irq.line id = (s.core.irq.line id).act cpu id
      (.configure id p.1.code.toInt) := line_step h hid
  constructor
  · intro ht hge henabled
    have hdelivered : (t.core.irq.line id).config.DeliveredTo cpu id := by
      rw [hself]
      exact (InterruptLine.delivered_configure p.1.accepted hge).mpr henabled
    have hhandled := (ht id hid hdelivered).1
    rw [hhandles, if_pos rfl] at hhandled
    exact hhandled
  · intro hprepares id' hid' hdelivered
    by_cases heq : id' = id
    · subst heq
      by_cases hge : 16 ≤ id'
      · have hconfig : t.core.irq.config id' = _ :=
          congrArg InterruptLine.config hself
        rw [hconfig, InterruptLine.delivered_configure p.1.accepted hge] at hdelivered
        have hrecorded := congrArg InterruptLine.recorded hself
        rw [InterruptLine.act, if_pos ⟨p.1.accepted, hge, rfl⟩] at hrecorded
        rw [hhandles, if_pos rfl]
        exact ⟨hprepares hge hdelivered, hrecorded⟩
      · have hsame : t.core.irq.line id' = s.core.irq.line id' := by
          rw [hself, InterruptLine.act, if_neg fun h => hge h.2.1]
        have hconfig : t.core.irq.config id' = s.core.irq.config id' :=
          congrArg InterruptLine.config hsame
        have hrecorded := (hp id' hid' (hconfig ▸ hdelivered)).2
        exact absurd (hs id' hid' hrecorded) hge
    · have hsame : t.core.irq.line id' = s.core.irq.line id' := by
        rw [line_step h hid']
        exact if_neg fun h => heq h.2.2
      refine prepared_of_same hp hid' hsame ?_ hdelivered
      rw [hhandles, if_neg heq]

theorem prepared_enable_iff {id : ℤ} (hp : s.Prepared cpu)
    (h : step cpu s (.enable id) = some t) :
    t.Prepared cpu ↔ s.Prepares cpu (.enable id) := by
  have hid := user_of_enable h
  obtain ⟨-, -, hhandlers⟩ := step_eq_some h
  have hhandles : ∀ id', t.handles id' = s.handles id' :=
    fun id' => congrFun hhandlers _
  have hline : ∀ id', Interrupts.UserInterrupt id' →
      t.core.irq.line id' = (s.core.irq.line id').act cpu id' (.enable id) :=
    fun id' hid' => line_step h hid'
  have hrecorded : t.core.irq.recorded id = s.core.irq.recorded id :=
    congrArg InterruptLine.recorded (hline id hid)
  have hconfig : t.core.irq.config id =
      { s.core.irq.config id with enabled := true } := by
    refine (congrArg InterruptLine.config (hline id hid)).trans ?_
    simp [InterruptLine.act, Interrupts.line]
  constructor
  · intro ht hgroup htarget
    have hdelivered : (t.core.irq.config id).DeliveredTo cpu id := by
      rw [hconfig]
      exact ⟨rfl, hgroup, htarget⟩
    rw [← hhandles, ← hrecorded]
    exact ht id hid hdelivered
  · intro hprepares id' hid' hdelivered
    by_cases heq : id' = id
    · subst heq
      rw [hconfig] at hdelivered
      rw [hhandles, hrecorded]
      exact hprepares hdelivered.group hdelivered.target
    · have hsame : t.core.irq.line id' = s.core.irq.line id' := by
        rw [hline id' hid']
        simp [InterruptLine.act, Interrupts.line, heq]
      exact prepared_of_same hp hid' hsame (hhandles id') hdelivered

/-- The next payload finds no interrupt that reaches it. -/
theorem prepared_kill {base : ℤ} {frames : ℤ → Aarch64FpRegs}
    {regs : Aarch64FpRegs} (hp : s.Prepared cpu)
    (h : step cpu s (.kill base frames regs) = some t) : t.Prepared cpu := by
  intro id hid hdelivered
  have hline : t.core.irq.line id = (s.core.irq.line id).act cpu id .restart :=
    line_step h hid
  have hconfig : t.core.irq.config id = _ := congrArg InterruptLine.config hline
  rw [hconfig] at hdelivered
  obtain ⟨hbefore, hunrecorded⟩ :=
    InterruptLine.recorded_of_restart_delivered hdelivered
  have hrecorded := (hp id hid hbefore).2
  exact absurd (hunrecorded.symm.trans hrecorded) Bool.false_ne_true

theorem prepared_step_iff (hs : s.RecordsPeripherals) (hp : s.Prepared cpu)
    (h : step cpu s a = some t) : t.Prepared cpu ↔ s.Prepares cpu a := by
  have hunchanged : (∀ id, Interrupts.UserInterrupt id →
      (t.core.irq.config id).DeliveredTo cpu id →
        t.core.irq.line id = s.core.irq.line id) →
      t.handlers = s.handlers → t.Prepared cpu := by
    intro hline hhandlers id hid hdelivered
    exact prepared_of_same hp hid (hline id hid hdelivered)
      (congrFun hhandlers _) hdelivered
  obtain ⟨-, -, hhandlers⟩ := step_eq_some h
  cases a with
  | configure id p => exact prepared_configure_iff hs hp h
  | enable id => exact prepared_enable_iff hp h
  | kill base frames regs => exact iff_of_true (prepared_kill hp h) trivial
  | disable id =>
      refine iff_of_true (hunchanged ?_ hhandlers) trivial
      intro id' hid' hdelivered
      have hline : t.core.irq.line id' =
          (s.core.irq.line id').act cpu id' (.disable id) := line_step h hid'
      have henabled := hdelivered.enabled
      have hne : id' ≠ id := by
        rintro rfl
        have hoff := congrArg (fun l => l.config.enabled) hline
        simp only [InterruptLine.act, decide_true, Bool.not_true,
          Bool.and_false] at hoff
        exact absurd (hoff.symm.trans henabled) Bool.false_ne_true
      rw [hline]
      simp [InterruptLine.act, Interrupts.line, hne]
  | _ => exact iff_of_true (hunchanged (fun _ hid _ => line_step h hid) hhandlers) trivial

/-! ## Runs -/

theorem Booted.recordsPeripherals (hs : s.Booted cpu) : s.RecordsPeripherals := by
  obtain ⟨start, base, frames, regs, rfl, -⟩ := hs
  intro id hid hrecorded
  have hbefore := Interrupts.recorded_of_recorded_setupInterrupts cpu start.irq
    hrecorded
  rw [start.recorded_eq_false id hid] at hbefore
  exact absurd hbefore Bool.false_ne_true

theorem Booted.prepared (hs : s.Booted cpu) : s.Prepared cpu := by
  obtain ⟨start, base, frames, regs, rfl, hstart⟩ := hs
  intro id hid hdelivered
  have hline := start.irq.line_setupInterrupts cpu hid
  rw [InterruptLine.setup] at hline
  split at hline
  next =>
    have hgroup := congrArg (fun l => l.config.inGroup1) hline
    exact absurd (hgroup.symm.trans hdelivered.group) Bool.false_ne_true
  next =>
    have hconfig : (Interrupts.setupInterrupts cpu start.irq).config id =
        start.irq.config id := congrArg InterruptLine.config hline
    exact absurd (hconfig ▸ hdelivered) (hstart id hid)

theorem Booted.phase (hs : s.Booted cpu) : s.core.phase = .handler := by
  obtain ⟨start, base, frames, regs, rfl, -⟩ := hs
  rfl

/-- Where every interrupt that can arrive has a function, `IRQInterrupt` finds
one. -/
theorem ne_crash_step (hp : s.Prepared cpu) (hphase : s.core.phase ≠ .crash)
    (h : step cpu s a = some t) : t.core.phase ≠ .crash := by
  obtain ⟨hdispatch, hcore, -⟩ := step_eq_some h
  revert hdispatch
  refine Preemptible.step_cases
    (Q := fun a core => s.Dispatches a → core.phase ≠ .crash) hcore
    ?_ ?_ ?_ ?_ ?_ ?_ ?_ ?_ ?_ ?_ ?_
  case refine_7 =>
    intro id registered _ hsignal hdispatch
    have hregistered : registered = s.handles id := hdispatch
    rw [hregistered, (hp id hsignal.user (delivered_of_signalled hsignal)).1]
    exact HandlerPhase.noConfusion
  case refine_9 =>
    intro b rest phase _ hphase' _
    rcases hphase' with ⟨-, rfl⟩ | ⟨-, rfl⟩ <;> exact HandlerPhase.noConfusion
  case refine_1 | refine_2 | refine_3 | refine_4 | refine_5 =>
    intros
    exact hphase
  all_goals
    intros
    exact HandlerPhase.noConfusion

end Dispatching

/-- Over any sequence of payloads on a core that no interrupt reached at first, and
whose monitor had recorded none: every interrupt that can reach a payload is one
that it has set up with a function, exactly as long as payloads enable only
interrupts they have set up with a function, or that do not reach the core, and
set up no enabled interrupt without one; and then no payload crashes for want of a
handler. -/
theorem interrupts_handled_iff
    {binaryPoint : ℕ} {cpu : DomainIndex} {s : Dispatching binaryPoint}
    (hboot : s.Booted cpu)
    (schedule : List (PreemptAction (PayloadInterruptPriority × Bool))) :
    (Throughout (Dispatching.step cpu) s schedule (Dispatching.Prepared cpu) ↔
      EachStep (Dispatching.step cpu) s schedule (Dispatching.Prepares cpu)) ∧
    (EachStep (Dispatching.step cpu) s schedule (Dispatching.Prepares cpu) →
      Throughout (Dispatching.step cpu) s schedule
        fun t => t.core.phase ≠ .crash) := by
  have hiff : Throughout (Dispatching.step cpu) s schedule
        (Dispatching.Prepared cpu) ↔
      EachStep (Dispatching.step cpu) s schedule (Dispatching.Prepares cpu) :=
    throughout_iff_eachStep
      (fun _ _ _ hs h => Dispatching.recordsPeripherals_step hs h)
      (fun _ _ _ hs hp h => Dispatching.prepared_step_iff hs hp h)
      hboot.recordsPeripherals hboot.prepared schedule
  refine ⟨hiff, fun heach before => ?_⟩
  have hall := hiff.mpr heach
  induction before using List.reverseRecOn with
  | nil =>
      intro t _ hrun
      obtain rfl := Option.some.inj hrun
      rw [hboot.phase]
      exact HandlerPhase.noConfusion
  | append_singleton before a ih =>
      intro t hprefix hrun
      obtain ⟨u, hu, ht⟩ := run_concat_eq_some.mp hrun
      have hbefore : before <+: schedule :=
        (List.prefix_append before [a]).trans hprefix
      exact Dispatching.ne_crash_step (hall before u hbefore hu)
        (ih u hbefore hu) ht

/-- A payload that uses interrupt 121 is killed; the next one enables it without
having set it up. -/
def enablesWithoutSetup :
    List (PreemptAction (PayloadInterruptPriority × Bool)) :=
  let regs := IpcBlock.zero.executorToManager.fpregs
  [.configure 121 (.p7Max, true), .enable 121, .irq 121, .acknowledge 121 true,
    .kill 0 (fun _ => regs) regs]

theorem interrupts_handled_iff_enablesWithoutSetup :
    ∃ s : Dispatching 3, s.Booted .cpu1 ∧
      ¬Throughout (Dispatching.step .cpu1) s (enablesWithoutSetup ++ [.enable 121])
        (Dispatching.Prepared .cpu1) := by
  let regs := IpcBlock.zero.executorToManager.fpregs
  have hboot : (Dispatching.boot 3 .cpu1 MonitorStart.powerOn.irq 0 (fun _ => regs)
      regs).Booted .cpu1 := by
    refine ⟨.powerOn, 0, fun _ => regs, regs, rfl, fun id _ hdelivered => ?_⟩
    have hzero : Interrupts.reset.gicd.inGroup1 id = false := BitVec.getLsbD_zero
    exact absurd (hzero.symm.trans hdelivered.group) Bool.false_ne_true
  refine ⟨_, hboot, ?_⟩
  rw [(interrupts_handled_iff hboot _).1]
  intro heach
  have hrun : (run (Dispatching.step .cpu1)
      (Dispatching.boot 3 .cpu1 MonitorStart.powerOn.irq 0 (fun _ => regs) regs)
      enablesWithoutSetup).any (fun t =>
        (!t.handles 121 && t.core.irq.gicd.inGroup1 121 &&
          t.core.irq.gicd.targets 121 1) &&
          (Dispatching.step .cpu1 t (.enable 121)).isSome) = true := by
    decide +kernel
  obtain ⟨t, ht, htest⟩ := (Option.any_eq_true _ _).mp hrun
  simp only [Bool.and_eq_true, Bool.not_eq_true'] at htest
  obtain ⟨⟨⟨hhandles, hgroup⟩, htarget⟩, hsome⟩ := htest
  obtain ⟨u, hu⟩ := Option.isSome_iff_exists.mp hsome
  have hprepares : Dispatching.Prepares .cpu1 t (.enable 121) :=
    heach enablesWithoutSetup (.enable 121) t u (List.prefix_refl _) ht hu
  have hhandled := (hprepares hgroup (.inr htarget)).1
  exact absurd (hhandles.symm.trans hhandled) Bool.false_ne_true

end Bmboot
