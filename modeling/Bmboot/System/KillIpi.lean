import Bmboot.System.StateWord

/-!
# Kill requests are never lost

The kill request is one bit of the core's IPI channel.  It is cleared in two
places, by the interrupt handler and by `setupInterrupts`, and from both the
monitor goes on to publish `monitor_ready` afresh.  A request that arrives at
any other moment stays in the channel.
-/

namespace Bmboot

open Interrupts StepSystem

/-! ## The request bit -/

namespace Interrupts

/-- No bit but the manager's is set in the channel. -/
def OnlyKill (irq : Interrupts) : Prop :=
  irq.ipi.isr &&& ~~~killMask = 0

variable {irq : Interrupts}

/-- The channel is empty or holds exactly the kill request. -/
theorem OnlyKill.isr_eq (h : irq.OnlyKill) :
    irq.ipi.isr = 0 ∨ irq.ipi.isr = killMask :=
  eq_zero_or_killMask h

theorem OnlyKill.raiseKill (h : irq.OnlyKill) : irq.raiseKill.OnlyKill := by
  rcases h.isr_eq with hisr | hisr
  · simp [OnlyKill, Interrupts.raiseKill, hisr]
  · simp [OnlyKill, Interrupts.raiseKill, hisr]

theorem OnlyKill.writeIsr (h : irq.OnlyKill) (mask : BitVec 32) :
    (irq.writeIsr mask).OnlyKill := by
  have hcomm : irq.ipi.isr &&& ~~~mask &&& ~~~killMask =
      irq.ipi.isr &&& ~~~killMask &&& ~~~mask := by
    rw [BitVec.and_assoc, BitVec.and_comm (~~~mask), ← BitVec.and_assoc]
  have hzero : irq.ipi.isr &&& ~~~killMask = 0 := h
  simp [OnlyKill, Interrupts.writeIsr, hcomm, hzero]

@[simp] theorem killPending_raiseKill : irq.raiseKill.killPending = true := by
  have hor : (irq.ipi.isr ||| killMask) &&& killMask = killMask := by
    refine BitVec.eq_of_getLsbD_eq fun i hi => ?_
    rw [BitVec.getLsbD_and, BitVec.getLsbD_or]
    cases irq.ipi.isr.getLsbD i <;> cases killMask.getLsbD i <;> rfl
  simp [killPending, Interrupts.raiseKill, hor]
  decide

/-- An asserted line is a kill request. -/
theorem OnlyKill.killPending_of_fiqSignalled {cpu : DomainIndex}
    (h : irq.OnlyKill) (hsignalled : irq.fiqSignalled cpu = true) :
    irq.killPending = true := by
  have hline : irq.ipiLine = true := by
    simp only [fiqSignalled, Bool.and_eq_true] at hsignalled
    exact hsignalled.1.1.1.1.1.1.1
  rcases h.isr_eq with hisr | hisr
  · simp [ipiLine, hisr] at hline
  · simp [killPending, hisr]
    decide

end Interrupts

/-! ## The handler -/

/-- What is known at each point of `FIQInterrupt`, up to the teardown. -/
def FiqPc.KillOk (cpu : DomainIndex) (irq : Interrupts) : FiqPc → Prop
  | .readIar => irq.fiqSignalled cpu = true
  | .readIsr iar =>
      iar = BitVec.ofInt 32 cpu.ipiInterruptId ∧ irq.killPending = true
  | .writeIsr _ sourceMask => sourceMask &&& killMask ≠ 0
  | .writeEoir _ sourceMask => sourceMask &&& killMask ≠ 0
  | .teardown _ => True

theorem TeardownPc.step_ipi (irq : Interrupts) (pc : TeardownPc) :
    (TeardownPc.step irq pc).1.ipi = irq.ipi := by
  cases pc with
  | disableTimer => rfl
  | clearNsapr0 => rfl
  | loop id =>
      simp only [TeardownPc.step, teardownInterrupt]
      split_ifs <;> rfl

section Handler

variable {cpu : DomainIndex} {irq irq' : Interrupts} {pc pc' : FiqPc}

/-- A second request while one is pending changes nothing. -/
theorem raiseKill_of_killPending
    (honly : irq.OnlyKill) (hpending : irq.killPending = true) :
    irq.raiseKill = irq := by
  rcases honly.isr_eq with hisr | hisr
  · simp [killPending, hisr] at hpending
  · have hset : irq.ipi.isr ||| killMask = irq.ipi.isr := by
      rw [hisr, BitVec.or_self]
    simp only [Interrupts.raiseKill, hset]

theorem FiqPc.KillOk.raiseKill
    (h : pc.KillOk cpu irq) (honly : irq.OnlyKill) :
    pc.KillOk cpu irq.raiseKill := by
  cases pc with
  | readIar =>
      rw [raiseKill_of_killPending honly (honly.killPending_of_fiqSignalled h)]
      exact h
  | readIsr iar => exact ⟨h.1, killPending_raiseKill⟩
  | _ => exact h

theorem readIar_of_signalled (h : irq.fiqSignalled cpu = true) :
    ∃ d, irq.readIar cpu =
      ({ irq with gicd := d }, BitVec.ofInt 32 cpu.ipiInterruptId) := by
  simp only [Interrupts.readIar, h, if_true]
  exact ⟨_, rfl⟩

theorem iar_ipiInterruptId :
    ((BitVec.ofInt 32 cpu.ipiInterruptId &&& iarInterruptIdMask).toNat : ℤ) =
      cpu.ipiInterruptId := by
  cases cpu <;> decide

/-- A step inside the handler. -/
theorem FiqPc.KillOk.step_goto
    (hok : pc.KillOk cpu irq) (honly : irq.OnlyKill)
    (hstep : pc.step cpu irq = (irq', .goto pc')) :
    pc'.KillOk cpu irq' ∧ irq'.OnlyKill := by
  cases pc with
  | readIar =>
      obtain ⟨d, hiar⟩ := readIar_of_signalled hok
      have hpending := honly.killPending_of_fiqSignalled hok
      simp only [FiqPc.step, hiar, iar_ipiInterruptId, if_true] at hstep
      cases hstep
      exact ⟨⟨rfl, hpending⟩, honly⟩
  | readIsr iar =>
      simp only [FiqPc.step] at hstep
      cases hstep
      exact ⟨by simpa [FiqPc.KillOk, killPending] using hok.2, honly⟩
  | writeIsr iar sourceMask =>
      simp only [FiqPc.step] at hstep
      cases hstep
      exact ⟨hok, honly.writeIsr sourceMask⟩
  | writeEoir iar sourceMask =>
      have hmask : sourceMask &&& getIpiPeerMask ipiSrcBmbootManager ≠ 0 := hok
      simp only [FiqPc.step, hmask, ne_eq, not_false_eq_true, if_true] at hstep
      cases hstep
      exact ⟨trivial, honly⟩
  | teardown pc =>
      simp only [FiqPc.step] at hstep
      split at hstep
      next irq'' pc'' hteardown =>
        cases hstep
        have hipi := TeardownPc.step_ipi irq pc
        rw [hteardown] at hipi
        exact ⟨trivial, by rw [OnlyKill, hipi]; exact honly⟩
      · cases hstep

/-- The handler never crashes the monitor. -/
theorem FiqPc.KillOk.step_ret {outcome : FiqOutcome}
    (hok : pc.KillOk cpu irq) (honly : irq.OnlyKill)
    (hstep : pc.step cpu irq = (irq', .ret outcome)) :
    outcome = .boot ∧ irq'.OnlyKill := by
  cases pc with
  | readIar =>
      obtain ⟨d, hiar⟩ := readIar_of_signalled hok
      simp only [FiqPc.step, hiar, iar_ipiInterruptId, if_true] at hstep
      cases hstep
  | readIsr iar => cases hstep
  | writeIsr iar sourceMask => cases hstep
  | writeEoir iar sourceMask =>
      have hmask : sourceMask &&& getIpiPeerMask ipiSrcBmbootManager ≠ 0 := hok
      simp only [FiqPc.step, hmask, ne_eq, not_false_eq_true, if_true] at hstep
      cases hstep
  | teardown pc =>
      simp only [FiqPc.step] at hstep
      split at hstep
      · cases hstep
      next irq'' hteardown =>
        cases hstep
        have hipi := TeardownPc.step_ipi irq pc
        rw [hteardown] at hipi
        exact ⟨rfl, by rw [OnlyKill, hipi]; exact honly⟩

end Handler

theorem SetupPc.step_onlyKill {cpu : DomainIndex} {irq : Interrupts}
    (honly : irq.OnlyKill) (pc : SetupPc) :
    (pc.step cpu irq).1.OnlyKill := by
  cases pc with
  | recordRouting =>
      simp only [SetupPc.step, Interrupts.recordRouting]
      split_ifs <;> exact honly
  | writeIsr => exact honly.writeIsr _
  | _ => exact honly

/-! ## The invariant -/

/-- `FIQInterrupt` is running. -/
def MonitorPc.HandlesKill : MonitorPc → Prop
  | .fiq _ => True
  | _ => False

/-- The monitor is between `_boot` and its publication of `monitor_ready`. -/
def MonitorPc.Restarts : MonitorPc → Prop
  | .boot | .setup _ | .publishReady => True
  | _ => False

theorem MonitorPc.InMain.not_handlesKill {pc : MonitorPc} (h : pc.InMain) :
    ¬pc.HandlesKill := by
  cases pc <;> first | exact h.elim | exact not_false

theorem MonitorPc.InMain.not_restarts {pc : MonitorPc} (h : pc.InMain) :
    ¬pc.Restarts := by
  cases pc <;> first | exact h.elim | exact not_false

/-- The latest kill request is pending, is being handled, or has been followed
by a fresh `monitor_ready`. -/
def System.KillAccounted (s : System) : Prop :=
  s.irq.killPending = true ∨ s.monitor.HandlesKill ∨ s.monitor.Restarts ∨
    s.monitorLog.ipiSentAtReady = s.managerLog.ipiSent

structure KillInv (cpu : DomainIndex) (s : System) : Prop where
  onlyKill : s.irq.OnlyKill
  fiq : ∀ pc, s.monitor = .fiq pc → pc.KillOk cpu s.irq
  accounted : 0 < s.managerLog.ipiSent → s.KillAccounted

section Invariant

variable {cpu : DomainIndex} {s t : System} {a : Action}

theorem KillInv.initial (h : s.Initial) : KillInv cpu s where
  onlyKill := h.isr
  fiq := by simp [h.monitor]
  accounted := by simp [h.ipiSent]

/-- Steps that do not touch the core. -/
theorem KillInv.sameExecutor
    (hs : KillInv cpu s) (hsame : System.SameExecutor s t) :
    KillInv cpu t where
  onlyKill := by
    rw [hsame.irq]
    exact hs.onlyKill
  fiq := by
    rw [hsame.irq, hsame.monitor]
    exact hs.fiq
  accounted := by
    rw [System.KillAccounted, hsame.ipiSent, hsame.irq, hsame.monitor,
      hsame.monitorLog]
    exact hs.accounted

/-- Steps of the core outside the handler and the restart that keep the
channel as it is. -/
theorem KillInv.sameIpi
    (hs : KillInv cpu s) (hhandles : ¬s.monitor.HandlesKill)
    (hrestarts : ¬s.monitor.Restarts) (hhandles' : ¬t.monitor.HandlesKill)
    (hipi : t.irq.ipi = s.irq.ipi)
    (hsent : t.managerLog.ipiSent = s.managerLog.ipiSent)
    (hready : t.monitorLog.ipiSentAtReady = s.monitorLog.ipiSentAtReady) :
    KillInv cpu t where
  onlyKill := by
    rw [OnlyKill, hipi]
    exact hs.onlyKill
  fiq := by
    intro pc hpc
    rw [hpc] at hhandles'
    exact absurd trivial hhandles'
  accounted := by
    intro hpos
    rw [hsent] at hpos
    rcases hs.accounted hpos with hpending | hhandling | hrestarting | heq
    · left
      rw [killPending, hipi]
      exact hpending
    · exact absurd hhandling hhandles
    · exact absurd hrestarting hrestarts
    · right; right; right
      rw [hready, hsent, heq]

theorem KillInv.startupStep
    (hs : KillInv cpu s) (cntfrq : BitVec 32) (pc : StartupPc) :
    KillInv cpu (s.startupStep cntfrq pc) := by
  cases pc with
  | guard =>
      simp only [System.startupStep]
      split_ifs <;> exact ⟨hs.onlyKill, hs.fiq, hs.accounted⟩
  | bootCore =>
      simp only [System.startupStep]
      split
      · exact
          { onlyKill := hs.onlyKill
            fiq := fun pc hpc => by cases hpc
            accounted := fun _ => .inr (.inr (.inl trivial)) }
      · exact ⟨hs.onlyKill, hs.fiq, hs.accounted⟩
  | _ => exact ⟨hs.onlyKill, hs.fiq, hs.accounted⟩

theorem KillInv.terminateStep
    (hs : KillInv cpu s) (pc : TerminatePc) :
    KillInv cpu (s.terminateStep pc) := by
  cases pc with
  | guard =>
      simp only [System.terminateStep]
      split_ifs <;> exact ⟨hs.onlyKill, hs.fiq, hs.accounted⟩
  | writeCmd => exact ⟨hs.onlyKill, hs.fiq, hs.accounted⟩
  | sendIpi =>
      exact
        { onlyKill := hs.onlyKill.raiseKill
          fiq := fun pc hpc => (hs.fiq pc hpc).raiseKill hs.onlyKill
          accounted := fun _ => .inl killPending_raiseKill }

theorem KillInv.fiqStep
    (hs : KillInv cpu s) {pc : FiqPc} (hpc : s.monitor = .fiq pc) :
    KillInv cpu (s.fiqStep cpu pc) := by
  have hok := hs.fiq pc hpc
  simp only [System.fiqStep]
  split
  next irq pc' hstep =>
    obtain ⟨hok', honly⟩ := hok.step_goto hs.onlyKill hstep
    exact
      { onlyKill := honly
        fiq := fun q hq => by
          cases hq
          exact hok'
        accounted := fun _ => .inr (.inl trivial) }
  next irq hstep =>
    obtain ⟨-, honly⟩ := hok.step_ret hs.onlyKill hstep
    exact
      { onlyKill := honly
        fiq := fun q hq => by cases hq
        accounted := fun _ => .inr (.inr (.inl trivial)) }
  next irq iar hstep =>
    obtain ⟨hboot, -⟩ := hok.step_ret hs.onlyKill hstep
    cases hboot

theorem KillInv.setupStep (hs : KillInv cpu s) (pc : SetupPc) :
    KillInv cpu (s.setupStep cpu pc) := by
  have honly : (pc.step cpu s.irq).1.OnlyKill :=
    SetupPc.step_onlyKill hs.onlyKill pc
  simp only [System.setupStep]
  split
  next irq pc' hstep =>
    rw [hstep] at honly
    exact
      { onlyKill := honly
        fiq := fun q hq => by cases hq
        accounted := fun _ => .inr (.inr (.inl trivial)) }
  next irq hstep =>
    rw [hstep] at honly
    exact
      { onlyKill := honly
        fiq := fun q hq => by cases hq
        accounted := fun _ => .inr (.inr (.inl trivial)) }

theorem KillInv.mainFrame
    (hs : KillInv cpu s) (hmain : s.monitor.InMain)
    (hframe : System.MainFrame s t) : KillInv cpu t :=
  hs.sameIpi hmain.not_handlesKill hmain.not_restarts
    hframe.monitor.not_handlesKill hframe.ipi (by rw [hframe.managerLog])
    hframe.ipiSentAtReady

theorem KillInv.smcStep
    (hs : KillInv cpu s) (c : SmcCall) (hpc : s.monitor = .el1 .payload) :
    KillInv cpu (s.smcStep cpu c) := by
  have hframe := System.smcStep_frame cpu s c
  have hhandles : ¬(s.smcStep cpu c).monitor.HandlesKill := by
    rcases System.smcStep_monitor cpu s c with hmonitor | hmonitor <;>
      rw [hmonitor] <;> exact not_false
  exact hs.sameIpi (by simp [hpc, MonitorPc.HandlesKill])
    (by simp [hpc, MonitorPc.Restarts]) hhandles hframe.ipi
    (by rw [hframe.managerLog]) (by rw [hframe.monitorLog])

theorem KillInv.step
    (hs : KillInv cpu s) (h : s.step cpu a = some t) : KillInv cpu t := by
  refine System.step_cases_main (P := fun _ t => KillInv cpu t) h
    (fun cntfrq pc _ => hs.startupStep cntfrq pc)
    (fun pc _ => hs.terminateStep pc)
    (fun _ _ _ hsame => hs.sameExecutor hsame)
    (fun pc hpc => hs.fiqStep hpc) ?boot (fun pc _ => hs.setupStep pc)
    ?publishReady (fun _ hmain hframe => hs.mainFrame hmain hframe) ?fiq
    (fun c hpc => hs.smcStep c hpc) ?abort
  case boot =>
    intro _
    exact
      { onlyKill := hs.onlyKill
        fiq := fun q hq => by cases hq
        accounted := fun _ => .inr (.inr (.inl trivial)) }
  case publishReady =>
    intro _
    exact
      { onlyKill := hs.onlyKill
        fiq := fun q hq => by cases hq
        accounted := fun _ => .inr (.inr (.inr rfl)) }
  case fiq =>
    intro _ hsignalled _
    exact
      { onlyKill := hs.onlyKill
        fiq := fun q hq => by
          cases hq
          exact hsignalled
        accounted := fun _ => .inr (.inl trivial) }
  case abort =>
    intro regs fpregs faultAddress call pc hpc
    exact hs.sameIpi (by simp [hpc, MonitorPc.HandlesKill])
      (by simp [hpc, MonitorPc.Restarts]) not_false rfl rfl rfl

theorem killInv_of_reachable {allowed : System → Action → Prop}
    (h : Reachable (System.step cpu) System.Initial allowed s) :
    KillInv cpu s :=
  h.invariant (fun _ hs => .initial hs) fun _ _ _ _ hs _ ht => hs.step ht

end Invariant

/-! ## The monitor crashes by other causes only -/

/-- The step is neither a monitor call that the monitor does not know nor an
abort in the monitor. -/
def NoFault : System → Action → Prop
  | _, .smc c => c.Known
  | _, .abort .. => False
  | _, _ => True

section NoFault

variable {cpu : DomainIndex} {s t : System} {a : Action}

theorem not_crashed_step
    (hkill : KillInv cpu s) (hs : s.monitor ≠ .crashed) (ha : NoFault s a)
    (h : s.step cpu a = some t) : t.monitor ≠ .crashed := by
  revert ha
  refine System.step_cases_main
    (P := fun a t => NoFault s a → t.monitor ≠ .crashed) h ?startup ?terminate
    ?manager ?fiqStep (by rintro _ _ ⟨⟩) ?setup (by rintro _ _ ⟨⟩) ?main
    (by rintro _ _ _ _ ⟨⟩) ?smc (fun _ _ _ _ _ _ ha => ha.elim)
  case startup =>
    intro cntfrq pc _ _
    cases pc with
    | guard =>
        simp only [System.startupStep]
        split_ifs <;> exact hs
    | bootCore =>
        simp only [System.startupStep]
        split
        · rintro ⟨⟩
        · exact hs
    | _ => exact hs
  case terminate =>
    intro pc _ _
    cases pc with
    | guard =>
        simp only [System.terminateStep]
        split_ifs <;> exact hs
    | _ => exact hs
  case manager =>
    intro _ _ _ hsame _
    rw [hsame.monitor]
    exact hs
  case fiqStep =>
    intro pc hpc _
    have hok := hkill.fiq pc hpc
    simp only [System.fiqStep]
    split
    · rintro ⟨⟩
    · rintro ⟨⟩
    next irq iar hstep =>
      obtain ⟨hboot, -⟩ := hok.step_ret hkill.onlyKill hstep
      cases hboot
  case setup =>
    intro pc _ _
    simp only [System.setupStep]
    split <;> rintro ⟨⟩
  case main =>
    intro t _ hframe _ hcrashed
    have hmain := hframe.monitor
    rw [hcrashed] at hmain
    exact hmain
  case smc =>
    intro c _ ha
    rcases System.smcStep_effect cpu s c with
      ⟨-, hmonitor, -, -⟩ | ⟨-, hmonitor, -, -⟩ | ⟨hmonitor, -, -⟩ | ⟨hc, -⟩
    · simp [hmonitor]
    · simp [hmonitor]
    · simp [hmonitor]
    · exact absurd ha hc

/-- Kill requests alone never crash the monitor. -/
theorem not_crashed_of_reachable
    (h : Reachable (System.step cpu) System.Initial NoFault s) :
    s.monitor ≠ .crashed := by
  induction h with
  | init hs => simp [hs.monitor]
  | step hreach ha ht ih =>
      exact not_crashed_step (killInv_of_reachable hreach) ih ha ht

end NoFault

/-! ## Main result -/

/-- A monitor that has not crashed does not report a crash of the monitor. -/
theorem StateInv.state_ne_crashedMonitor {s : System}
    (hs : StateInv s) (hreset : s.monitor ≠ .inReset)
    (hcrashed : s.monitor ≠ .crashed) :
    s.ipc.executorToManager.state ≠ DomainState.crashedMonitor.code := by
  have hrestart := hs.state.restart hreset hcrashed
  intro hstate
  rw [RestartState, hstate] at hrestart
  exact absurd hrestart (by decide)

/-- Once a kill request has been sent, in every state of every run the latest
one is pending, is being handled, has led to a restart under way, or has been
followed by a fresh `monitor_ready`; and as long as the payload makes no unknown
call and the monitor can read the image, no step of this model crashes the
monitor.  The kill IPI is the only interrupt here: another one that comes to the
monitor, such as an interrupt that a payload enables without having configured
it, makes it crash as well. -/
theorem no_kill_request_lost (cpu : DomainIndex) :
    (∀ s, Reachable (System.step cpu) System.Initial anyStep s →
      0 < s.managerLog.ipiSent → s.KillAccounted) ∧
    ∀ s, Reachable (System.step cpu) System.Initial NoFault s →
      s.monitor ≠ .crashed ∧
        (s.monitor ≠ .inReset →
          s.ipc.executorToManager.state ≠ DomainState.crashedMonitor.code) := by
  constructor
  · intro s h
    exact (killInv_of_reachable h).accounted
  · intro s h
    have hcrashed := not_crashed_of_reachable h
    refine ⟨hcrashed, ?_⟩
    intro hreset
    exact (stateInv_of_reachable h).state_ne_crashedMonitor hreset hcrashed

/-- Two kill requests in a row, the second one while `setupInterrupts` is about
to clear the channel. -/
def twoKillsSchedule : List Action :=
  startupSchedule ++ terminateSchedule ++ managerSteps 1 ++ .fiq ::
    monitorSteps 209 ++ terminateSchedule ++ monitorSteps 3

theorem no_kill_request_lost_twoKills :
    ∃ t, run (System.step .cpu1) System.powerOn twoKillsSchedule = some t ∧
      t.managerLog.ipiSent = 2 ∧ t.KillAccounted := by
  obtain ⟨t, hrun, hreach, hsent⟩ :=
    exists_reachable_of_run (System.step .cpu1) twoKillsSchedule
      (fun t => t.managerLog.ipiSent = 2) System.powerOn_initial
      (by decide +kernel)
  refine ⟨t, hrun, hsent, (no_kill_request_lost .cpu1).1 t hreach ?_⟩
  rw [hsent]
  exact Nat.two_pos

end Bmboot
