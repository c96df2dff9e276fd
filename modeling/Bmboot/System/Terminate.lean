import Bmboot.System.Calls

/-!
# Terminating a payload

`terminatePayload` sends a kill request and waits for `monitor_ready`.  Success
means that the request has been consumed if, when it is sent, the monitor
cannot publish `monitor_ready` any more without consuming it.
-/

namespace Bmboot

open StepSystem

/-- The start command being processed leads to a payload if nothing comes in
between. -/
def CommandPc.WillStart (s : System) : CommandPc → Prop
  | .writeState => False
  | .flushMask | .flushInvalidate _ | .flushRestore _ | .checkEntryAddress =>
      s.ipc.managerToExecutor.payloadEntryAddress = dummyEntryAddress ∨
        validatePayload s.mem s.ipc.managerToExecutor.payloadEntryAddress
          s.ipc.managerToExecutor.payloadSize
          s.ipc.managerToExecutor.payloadCrc = .crcOk
  | .readEntryAddress =>
      validatePayload s.mem s.ipc.managerToExecutor.payloadEntryAddress
        s.ipc.managerToExecutor.payloadSize
        s.ipc.managerToExecutor.payloadCrc = .crcOk
  | .readSize image =>
      validatePayload s.mem image s.ipc.managerToExecutor.payloadSize
        s.ipc.managerToExecutor.payloadCrc = .crcOk
  | .readCrc image imageSize =>
      validatePayload s.mem image imageSize
        s.ipc.managerToExecutor.payloadCrc = .crcOk
  | .validate call pc => pc.verdict call s.mem = .crcOk
  | .writeResp resp | .readAck resp | .writeAck resp _ => resp = .crcOk

/-- The monitor will clear its channel before it publishes `monitor_ready`. -/
def MonitorPc.Doomed (s : System) : MonitorPc → Prop
  | .fiq _ | .boot | .accepted _ | .enterDummy | .el1 _ | .crashed => True
  | .setup .writeIer => False
  | .setup _ => True
  | .command pc => pc.WillStart s
  | .inReset | .publishReady | .loop _ | .noop _ | .rejected => False

structure System.Doomed (s : System) : Prop where
  state : s.ipc.executorToManager.state ≠ DomainState.monitorReady.code
  monitor : s.monitor.Doomed s

/-- A kill request is only sent to a monitor that cannot publish
`monitor_ready` without consuming it. -/
def KillsDoomed (s : System) : Action → Prop
  | .manager => s.manager.pc = .terminate .sendIpi → s.Doomed
  | _ => True

instance (s : System) : ∀ pc : CommandPc, Decidable (pc.WillStart s)
  | .writeState => isFalse not_false
  | .flushMask | .flushInvalidate _ | .flushRestore _ | .checkEntryAddress =>
      inferInstanceAs (Decidable (_ ∨ _))
  | .readEntryAddress | .readSize _ | .readCrc _ _ =>
      inferInstanceAs (Decidable (validatePayload _ _ _ _ = _))
  | .validate call pc => inferInstanceAs (Decidable (pc.verdict call s.mem = _))
  | .writeResp resp | .readAck resp | .writeAck resp _ =>
      inferInstanceAs (Decidable (resp = .crcOk))

instance (s : System) : ∀ pc : MonitorPc, Decidable (pc.Doomed s)
  | .fiq _ | .boot | .accepted _ | .enterDummy | .el1 _ | .crashed =>
      isTrue trivial
  | .setup .writeIer => isFalse not_false
  | .setup .writeBpr | .setup .writePmr | .setup .writeCtrl | .setup .readDaif
  | .setup (.writeDaif _) | .setup .readGroup | .setup (.writeGroup _)
  | .setup .recordRouting | .setup .writePriority | .setup .writeTargets
  | .setup .clearPending | .setup .clearActive | .setup .setEnable
  | .setup .writeIsr => isTrue trivial
  | .command pc => inferInstanceAs (Decidable (pc.WillStart s))
  | .inReset | .publishReady | .loop _ | .noop _ | .rejected =>
      isFalse not_false

instance (s : System) : Decidable s.Doomed :=
  decidable_of_iff
    (s.ipc.executorToManager.state ≠ DomainState.monitorReady.code ∧
      s.monitor.Doomed s)
    ⟨fun h => ⟨h.1, h.2⟩, fun h => ⟨h.1, h.2⟩⟩

instance (s : System) : ∀ a : Action, Decidable (KillsDoomed s a)
  | .manager =>
      inferInstanceAs (Decidable (s.manager.pc = .terminate .sendIpi →
        s.Doomed))
  | .call _ | .fail _ | .timeout | .monitor | .fiq | .smc _ | .abort _ _ _ =>
      isTrue trivial

/-! ## A consumed request -/

/-- The last two points of a restart, behind the write to `ISR`. -/
def MonitorPc.Cleared : MonitorPc → Prop
  | .setup .writeIer | .publishReady => True
  | _ => False

/-- All kill requests have been consumed, and no restart is under way but for
the publication of `monitor_ready`. -/
structure System.KillConsumed (s : System) : Prop where
  consumed : s.monitorLog.ipiConsumed = s.managerLog.ipiSent
  pending : s.irq.killPending = false
  handles : ¬s.monitor.HandlesKill
  restarts : s.monitor.Restarts → s.monitor.Cleared ∧
    s.ipc.executorToManager.state ≠ DomainState.monitorReady.code

/-- All kill requests have been consumed, and none of them is at work. -/
structure System.KillDone (s : System) : Prop where
  consumed : s.monitorLog.ipiConsumed = s.managerLog.ipiSent
  pending : s.irq.killPending = false
  handles : ¬s.monitor.HandlesKill
  restarts : ¬s.monitor.Restarts

section Invariant

variable {cpu : DomainIndex} {s t : System} {a : Action}

theorem OnlyKill.killPending_writeIsr {irq : Interrupts} (h : irq.OnlyKill) :
    (irq.writeIsr Interrupts.killMask).killPending = false := by
  rcases h.isr_eq with hisr | hisr <;>
    simp [Interrupts.killPending, Interrupts.writeIsr, hisr]

theorem killPending_of_ipi {irq irq' : Interrupts} (h : irq'.ipi = irq.ipi) :
    irq'.killPending = irq.killPending := by
  simp only [Interrupts.killPending, h]

/-! ## Before the request is consumed -/

theorem CommandPc.WillStart.step
    {pc : CommandPc} (h : pc.WillStart s) :
    (s.commandStep pc).monitor.Doomed (s.commandStep pc) := by
  cases pc with
  | writeState => exact h.elim
  | flushMask | flushInvalidate | flushRestore => exact h
  | checkEntryAddress =>
      simp only [System.commandStep]
      split_ifs with hentry
      · trivial
      · exact h.resolve_left hentry
  | readEntryAddress => exact h
  | readSize image => exact h
  | readCrc image imageSize => exact h
  | validate call pc =>
      simp only [System.commandStep]
      split
      next pc' hstep =>
        exact (verdict_step_goto call s.mem hstep).trans h
      next resp hstep => exact (verdict_step_ret call s.mem hstep).symm.trans h
  | writeResp resp => exact h
  | readAck resp => exact h
  | writeAck resp ack =>
      have hresp : resp = .crcOk := h
      simp only [System.commandStep, hresp, if_true]
      trivial

theorem commandStep_state {pc : CommandPc} (h : pc.WillStart s) :
    (s.commandStep pc).ipc.executorToManager.state =
      s.ipc.executorToManager.state := by
  cases pc with
  | writeState => exact h.elim
  | checkEntryAddress =>
      simp only [System.commandStep]
      split_ifs <;> rfl
  | validate call pc =>
      simp only [System.commandStep]
      split <;> rfl
  | _ => rfl

/-- A doomed monitor stays doomed until the request is consumed. -/
theorem System.Doomed.core
    (hs : s.Doomed) (hkill : KillInv cpu s) (h : s.step cpu a = some t)
    (ha : a.OfCore) : t.Doomed ∨ t.KillConsumed := by
  have hstate := hs.state
  have hmonitor := hs.monitor
  have hnot : ∀ {P : Prop} {pc : MonitorPc}, s.monitor = pc → ¬pc.Doomed s →
      P := by
    rintro P pc rfl hpc
    exact absurd hmonitor hpc
  refine System.step_cases_ofCore (P := fun _ t => t.Doomed ∨ t.KillConsumed)
    h ha ?fiqStep (fun _ => .inl ⟨hstate, trivial⟩) ?setup
    (fun hpc => hnot hpc not_false) (fun _ hpc => hnot hpc not_false)
    (fun _ hpc => hnot hpc not_false) ?command ?accepted
    (fun hpc => hnot hpc not_false) (fun _ => .inl ⟨hstate, trivial⟩)
    (fun _ _ _ => .inl ⟨hstate, trivial⟩) ?smc
    (fun _ _ _ _ _ _ => .inl ⟨(by rintro ⟨⟩), trivial⟩)
  case fiqStep =>
    intro pc _
    simp only [System.fiqStep]
    split
    · exact .inl ⟨hstate, trivial⟩
    · exact .inl ⟨hstate, trivial⟩
    · exact .inl ⟨(by rintro ⟨⟩), trivial⟩
  case setup =>
    intro pc hpc
    rw [hpc] at hmonitor
    cases pc with
    | writeIer => exact hmonitor.elim
    | writeIsr =>
        have hpending :=
          OnlyKill.killPending_writeIsr hkill.onlyKill
        refine .inr ⟨?_, hpending, not_false, fun _ => ⟨trivial, hstate⟩⟩
        simp only [System.setupStep, SetupPc.step, System.setIrq,
          System.gotoMonitor]
        exact if_neg (by
          simpa only [Interrupts.killMask] using
            Bool.eq_false_iff.mp hpending)
    | _ => exact .inl ⟨hstate, trivial⟩
  case command =>
    intro pc hpc
    rw [hpc] at hmonitor
    refine .inl ⟨?_, CommandPc.WillStart.step hmonitor⟩
    rw [commandStep_state hmonitor]
    exact hstate
  case accepted =>
    intro pc _
    cases pc <;> exact .inl ⟨hstate, trivial⟩
  case smc =>
    intro c hpc
    left
    rcases System.smcStep_effect cpu s c with
      ⟨-, hmon, hword, -⟩ | ⟨-, hmon, hword, -⟩ | ⟨hmon, hword, -⟩ |
        ⟨-, hmon, -, hword, -⟩
    · exact ⟨by rw [hword]; decide, by rw [hmon]; trivial⟩
    · exact ⟨by rw [hword]; decide, by rw [hmon]; trivial⟩
    · exact ⟨by rw [hword]; exact hstate, by rw [hmon]; trivial⟩
    · exact ⟨by rw [hword]; decide, by rw [hmon]; trivial⟩

/-! ## After the request is consumed -/

/-- Without a request there is no kill interrupt. -/
theorem KillInv.not_fiqSignalled
    (hkill : KillInv cpu s) (hpending : s.irq.killPending = false) :
    s.irq.fiqSignalled cpu = false := by
  by_contra hsignalled
  have hsignalled' : s.irq.fiqSignalled cpu = true := by
    simpa using hsignalled
  rw [hkill.onlyKill.killPending_of_fiqSignalled hsignalled'] at hpending
  cases hpending

theorem System.KillDone.sameExecutor
    (hs : s.KillDone) (hsame : System.SameExecutor s t) : t.KillDone where
  consumed := by
    rw [hsame.monitorLog, hsame.ipiSent]
    exact hs.consumed
  pending := by
    rw [hsame.irq]
    exact hs.pending
  handles := by
    rw [hsame.monitor]
    exact hs.handles
  restarts := by
    rw [hsame.monitor]
    exact hs.restarts

/-- A request that is done with stays so until the next one is sent. -/
theorem System.KillDone.core
    (hs : s.KillDone) (hkill : KillInv cpu s) (h : s.step cpu a = some t)
    (ha : a.OfCore) : t.KillDone := by
  have hquiet : ∀ {t : System},
      t.monitorLog.ipiConsumed = s.monitorLog.ipiConsumed →
      t.managerLog.ipiSent = s.managerLog.ipiSent → t.irq.ipi = s.irq.ipi →
      ¬t.monitor.HandlesKill → ¬t.monitor.Restarts → t.KillDone := by
    intro t hconsumed hsent hipi hhandles hrestarts
    exact ⟨by rw [hconsumed, hsent, hs.consumed],
      by rw [killPending_of_ipi hipi, hs.pending], hhandles, hrestarts⟩
  have hnot : ∀ {P : Prop} {pc : MonitorPc}, s.monitor = pc →
      pc.HandlesKill ∨ pc.Restarts → P := by
    rintro P pc rfl (hhandles | hrestarts)
    · exact absurd hhandles hs.handles
    · exact absurd hrestarts hs.restarts
  revert ha
  refine System.step_cases_main (P := fun a t => a.OfCore → t.KillDone) h
    (fun _ _ _ => nofun) (fun _ _ => nofun)
    (fun _ _ _ hsame _ => hs.sameExecutor hsame)
    (fun _ hpc _ => hnot hpc (.inl trivial))
    (fun hpc _ => hnot hpc (.inr trivial))
    (fun _ hpc _ => hnot hpc (.inr trivial))
    (fun hpc _ => hnot hpc (.inr trivial)) ?main ?fiq ?smc
    (fun _ _ _ _ _ _ _ => hquiet rfl rfl rfl not_false not_false)
  case main =>
    intro t _ hframe _
    exact hquiet hframe.ipiConsumed (by rw [hframe.managerLog]) hframe.ipi
      hframe.monitor.not_handlesKill hframe.monitor.not_restarts
  case fiq =>
    intro _ hsignalled _ _
    rw [hkill.not_fiqSignalled hs.pending] at hsignalled
    cases hsignalled
  case smc =>
    intro c _ _
    have hframe := System.smcStep_frame cpu s c
    refine hquiet (by rw [hframe.monitorLog]) (by rw [hframe.managerLog])
      hframe.ipi ?_ ?_
    all_goals
      rcases System.smcStep_monitor cpu s c with hmonitor | hmonitor <;>
        rw [hmonitor] <;> exact not_false

theorem System.KillDone.toConsumed (hs : s.KillDone) : s.KillConsumed :=
  ⟨hs.consumed, hs.pending, hs.handles,
    fun hrestarts => absurd hrestarts hs.restarts⟩

/-- Once consumed, a request stays so until the next one is sent. -/
theorem System.KillConsumed.core
    (hs : s.KillConsumed) (hkill : KillInv cpu s) (h : s.step cpu a = some t)
    (ha : a.OfCore) : t.KillConsumed := by
  by_cases hrestarts : s.monitor.Restarts
  case neg =>
    have hdone : s.KillDone := ⟨hs.consumed, hs.pending, hs.handles, hrestarts⟩
    exact (hdone.core hkill h ha).toConsumed
  obtain ⟨hcleared, hstate⟩ := hs.restarts hrestarts
  have hnot : ∀ {P : Prop} {pc : MonitorPc}, s.monitor = pc → ¬pc.Cleared →
      P := by
    rintro P pc rfl hpc
    exact absurd hcleared hpc
  revert ha
  refine System.step_cases_main (P := fun a t => a.OfCore → t.KillConsumed) h
    (by rintro _ _ _ ⟨⟩) (by rintro _ _ ⟨⟩) ?manager
    (fun _ hpc _ => hnot hpc not_false) (fun hpc _ => hnot hpc not_false)
    ?setup ?publishReady
    (fun _ hmain _ _ => absurd hrestarts hmain.not_restarts) ?fiq
    (fun _ hpc _ => hnot hpc not_false)
    (fun _ _ _ _ _ hpc _ => hnot hpc not_false)
  case manager =>
    intro _ t _ hsame _
    refine ⟨?_, ?_, ?_, ?_⟩
    · rw [hsame.monitorLog, hsame.ipiSent]
      exact hs.consumed
    · rw [hsame.irq]
      exact hs.pending
    · rw [hsame.monitor]
      exact hs.handles
    · rw [hsame.monitor, hsame.inbox]
      exact hs.restarts
  case setup =>
    intro pc hpc _
    cases pc with
    | writeIer =>
        have hpending : (s.irq.writeIer
            (getIpiPeerMask ipiSrcBmbootManager)).killPending = false :=
          hs.pending
        refine ⟨?_, hpending, not_false, fun _ => ⟨trivial, hstate⟩⟩
        simp [System.setupStep, SetupPc.step, System.setIrq,
          System.gotoMonitor, hpending]
    | _ => exact hnot hpc not_false
  case publishReady =>
    intro _ _
    exact ⟨hs.consumed, hs.pending, not_false, (by rintro ⟨⟩)⟩
  case fiq =>
    intro _ hsignalled _ _
    rw [hkill.not_fiqSignalled hs.pending] at hsignalled
    cases hsignalled

theorem System.KillConsumed.done
    (hs : s.KillConsumed)
    (hready : s.ipc.executorToManager.state = DomainState.monitorReady.code) :
    s.KillDone :=
  ⟨hs.consumed, hs.pending, hs.handles,
    fun hrestarts => (hs.restarts hrestarts).2 hready⟩

/-! ## Waiting for `monitor_ready` -/

/-- While the manager waits, the monitor has consumed its request or will. -/
def AwaitInv (s : System) : Prop :=
  s.manager.pc = .await → s.Doomed ∨ s.KillConsumed

theorem awaitInv_step
    (hs : AwaitInv s) (hstate : StateInv s) (hkill : KillInv cpu s)
    (ha : KillsDoomed s a) (h : s.step cpu a = some t) : AwaitInv t := by
  revert ha
  refine System.step_cases_manager (P := fun a t => KillsDoomed s a → AwaitInv t)
    h ?call ?startup ?ensure ?load ?start ?poll ?terminate ?await
    (by rintro _ _ _ ⟨⟩) (by rintro _ _ ⟨⟩) (by rintro _ _ ⟨⟩) ?core
  case call =>
    intro c _ _
    cases c <;> rintro ⟨⟩
  case startup =>
    intro cntfrq pc hpc _
    have hok := hstate.startup cntfrq pc hpc
    cases pc with
    | bootCore =>
        obtain ⟨hin, hword⟩ := hok
        have hinvalid : s.ipc.executorToManager.state ≠
            DomainState.monitorReady.code := by
          rw [hword]
          decide
        simp only [System.startupStep, hin]
        exact fun _ => .inl ⟨hinvalid, trivial⟩
    | guard =>
        simp only [System.startupStep]
        split_ifs <;> rintro ⟨⟩
    | _ => rintro ⟨⟩
  case ensure =>
    intro cntfrq _ _
    simp only [System.ensureStep]
    split_ifs <;> rintro ⟨⟩
  case load =>
    intro load pc _ _
    cases pc with
    | checkState =>
        simp only [System.loadStep]
        split_ifs <;> rintro ⟨⟩
    | map =>
        simp only [System.loadStep]
        split <;> rintro ⟨⟩
    | store stores =>
        cases stores with
        | cons p rest => rintro ⟨⟩
        | nil =>
            simp only [System.loadStep]
            split <;> rintro ⟨⟩
  case start =>
    intro args pc _ _
    cases pc <;> simp only [System.startStep] <;> (try split_ifs) <;> rintro ⟨⟩
  case poll =>
    intro pc _ _
    cases pc <;> simp only [System.pollStep] <;> (try split_ifs) <;> rintro ⟨⟩
  case terminate =>
    intro pc hpc ha
    cases pc with
    | guard =>
        simp only [System.terminateStep]
        split_ifs <;> rintro ⟨⟩
    | writeCmd => rintro ⟨⟩
    | sendIpi =>
        obtain ⟨hword, hmonitor⟩ := ha hpc
        refine fun _ => .inl ⟨hword, ?_⟩
        -- the channel is all that changes, and dooms do not depend on it
        cases hm : s.monitor with
        | command pc =>
            rw [hm] at hmonitor
            simp only [System.terminateStep, System.gotoManager, hm]
            cases pc <;> exact hmonitor
        | setup pc =>
            rw [hm] at hmonitor
            simp only [System.terminateStep, System.gotoManager, hm]
            cases pc <;> exact hmonitor
        | _ =>
            rw [hm] at hmonitor
            simp only [System.terminateStep, System.gotoManager, hm]
            exact hmonitor
  case await =>
    intro hpc _
    simp only [System.awaitStep]
    split_ifs
    · rintro ⟨⟩
    · exact hs
  case core =>
    intro a t ht hcore hsame _ hpc
    rw [hsame.manager] at hpc
    rcases hs hpc with hdoomed | hconsumed
    · exact hdoomed.core hkill ht hcore
    · exact .inr (hconsumed.core hkill ht hcore)

theorem awaitInv_of_reachable
    (h : Reachable (System.step cpu) System.Initial KillsDoomed s) :
    AwaitInv s := by
  induction h with
  | init hs =>
      intro hpc
      rw [hs.pc] at hpc
      cases hpc
  | step hreach ha ht ih =>
      exact awaitInv_step ih (stateInv_of_reachable hreach)
        (killInv_of_reachable hreach) ha ht

/-! ## Until the next request -/

/-- A domain that has been started up stays so. -/
theorem generalState_step
    (hs : s.manager.generalState = .monitorStarted)
    (h : s.step cpu a = some t) :
    t.manager.generalState = .monitorStarted := by
  have hsame : ∀ {t : System}, System.SameExecutor s t →
      t.manager.generalState = .monitorStarted := by
    intro t hsame
    rw [hsame.generalState, hs]
  refine System.step_cases_manager
    (P := fun _ t => t.manager.generalState = .monitorStarted) h
    (fun c _ => hsame (s.beginCall_sameExecutor cpu c)) ?startup
    (fun cntfrq _ => hsame (s.ensureStep_sameExecutor cntfrq))
    (fun load pc _ => hsame (s.loadStep_sameExecutor load pc))
    (fun args pc _ => hsame (s.startStep_sameExecutor args pc))
    (fun pc _ => hsame (s.pollStep_sameExecutor pc)) ?terminate
    (fun hpc => hsame (s.awaitStep_sameExecutor hpc)) (fun _ _ => hs)
    (fun _ => hs) (fun _ => hs) ?core
  case startup =>
    intro cntfrq pc _
    cases pc with
    | guard =>
        simp only [System.startupStep]
        split_ifs <;> exact hs
    | bootCore =>
        simp only [System.startupStep]
        split
        · rfl
        · exact hs
    | _ => exact hs
  case terminate =>
    intro pc _
    cases pc with
    | guard =>
        simp only [System.terminateStep]
        split_ifs <;> exact hs
    | _ => exact hs
  case core =>
    intro _ t _ _ hcore
    rw [hcore.manager, hs]

theorem StateInv.notReset
    (hs : StateInv s) (hgeneral : s.manager.generalState = .monitorStarted) :
    s.monitor ≠ .inReset := by
  rcases hs.general with ⟨hin, -⟩ | ⟨-, hreset⟩
  · rw [hgeneral] at hin
    cases hin
  · exact hreset

/-- Kill requests are only ever added. -/
theorem ipiSent_mono (h : s.step cpu a = some t) :
    s.managerLog.ipiSent ≤ t.managerLog.ipiSent := by
  refine System.step_cases_manager
    (P := fun _ t => s.managerLog.ipiSent ≤ t.managerLog.ipiSent) h
    (fun _ _ => le_rfl) ?startup
    (fun cntfrq _ => (s.ensureStep_sameExecutor cntfrq).ipiSent.ge)
    (fun load pc _ => (s.loadStep_sameExecutor load pc).ipiSent.ge)
    (fun args pc _ => (s.startStep_sameExecutor args pc).ipiSent.ge)
    (fun pc _ => (s.pollStep_sameExecutor pc).ipiSent.ge) ?terminate
    (fun hpc => (s.awaitStep_sameExecutor hpc).ipiSent.ge)
    (fun _ _ => le_rfl) (fun _ => le_rfl) (fun _ => le_rfl) ?core
  case startup =>
    intro cntfrq pc _
    cases pc <;> simp only [System.startupStep] <;> (try split) <;>
      exact le_refl _
  case terminate =>
    intro pc _
    cases pc with
    | guard =>
        simp only [System.terminateStep]
        split_ifs <;> exact le_refl _
    | writeCmd => exact le_refl _
    | sendIpi => exact Nat.le_succ _
  case core =>
    intro _ t _ _ hsame
    rw [hsame.managerLog]

theorem ipiSent_mono_run {as : List Action}
    (h : run (System.step cpu) s as = some t) :
    s.managerLog.ipiSent ≤ t.managerLog.ipiSent := by
  induction as generalizing s with
  | nil =>
      cases h
      exact le_rfl
  | cons a as ih =>
      obtain ⟨u, hu, hrest⟩ := run_cons_eq_some.mp h
      exact (ipiSent_mono hu).trans (ih hrest)

/-- A step that sends no request leaves the earlier ones done with. -/
theorem System.KillDone.step
    (hs : s.KillDone) (hstate : StateInv s) (hkill : KillInv cpu s)
    (hgeneral : s.manager.generalState = .monitorStarted)
    (h : s.step cpu a = some t)
    (hsent : t.managerLog.ipiSent = s.managerLog.ipiSent) : t.KillDone := by
  revert hsent
  refine System.step_cases_manager
    (P := fun _ t => t.managerLog.ipiSent = s.managerLog.ipiSent → t.KillDone)
    h (fun c _ _ => hs.sameExecutor (s.beginCall_sameExecutor cpu c)) ?startup
    (fun cntfrq _ _ => hs.sameExecutor (s.ensureStep_sameExecutor cntfrq))
    (fun load pc _ _ => hs.sameExecutor (s.loadStep_sameExecutor load pc))
    (fun args pc _ _ => hs.sameExecutor (s.startStep_sameExecutor args pc))
    (fun pc _ _ => hs.sameExecutor (s.pollStep_sameExecutor pc)) ?terminate
    (fun hpc _ => hs.sameExecutor (s.awaitStep_sameExecutor hpc))
    (fun _ _ _ => hs.sameExecutor (s.finish_sameExecutor _))
    (fun _ _ => hs.sameExecutor (s.finish_sameExecutor _))
    (fun _ _ => hs.sameExecutor (s.finish_sameExecutor _))
    (fun a t ht ha _ _ => hs.core hkill ht ha)
  case startup =>
    intro cntfrq pc _ _
    cases pc with
    | guard =>
        simp only [System.startupStep]
        split_ifs <;> exact ⟨hs.consumed, hs.pending, hs.handles, hs.restarts⟩
    | bootCore =>
        simp only [System.startupStep]
        split
        next hin => exact absurd hin (hstate.notReset hgeneral)
        · exact ⟨hs.consumed, hs.pending, hs.handles, hs.restarts⟩
    | _ => exact ⟨hs.consumed, hs.pending, hs.handles, hs.restarts⟩
  case terminate =>
    intro pc _ hsent
    cases pc with
    | guard =>
        simp only [System.terminateStep]
        split_ifs <;> exact ⟨hs.consumed, hs.pending, hs.handles, hs.restarts⟩
    | writeCmd => exact ⟨hs.consumed, hs.pending, hs.handles, hs.restarts⟩
    | sendIpi => exact absurd hsent (Nat.succ_ne_self _)

/-- In every run from here that sends no other kill request, none is at work. -/
def System.KillOver (cpu : DomainIndex) (s : System) : Prop :=
  ∀ as t, run (System.step cpu) s as = some t →
    t.managerLog.ipiSent = s.managerLog.ipiSent → t.KillDone

theorem System.KillDone.over
    (hs : s.KillDone)
    (h : Reachable (System.step cpu) System.Initial anyStep s)
    (hgeneral : s.manager.generalState = .monitorStarted) :
    s.KillOver cpu := by
  intro as
  induction as generalizing s with
  | nil =>
      intro t hrun _
      cases hrun
      exact hs
  | cons a as ih =>
      intro t hrun hsent
      obtain ⟨u, hu, hrest⟩ := run_cons_eq_some.mp hrun
      have hfirst := ipiSent_mono hu
      have hlast := ipiSent_mono_run hrest
      have hsame : u.managerLog.ipiSent = s.managerLog.ipiSent := by omega
      have hdone := hs.step (stateInv_of_reachable h) (killInv_of_reachable h)
        hgeneral hu hsame
      exact ih hdone (.step h trivial hu) (generalState_step hgeneral hu) t
        hrest (by omega)

/-! ## Main result -/

/-- If a step ends a call of `terminatePayload`, or any other wait for
`monitor_ready`, with success, no kill request sent so far is at work then or
later. -/
def TerminateClean (cpu : DomainIndex) (s t : System) : Prop :=
  s.manager.result = none → t.manager.result = some none →
    s.manager.call = some .terminatePayload ∨ s.manager.pc = .await →
      t.KillOver cpu

/-- In every run in which kill requests are only sent to monitors that cannot
publish `monitor_ready` before they consume them, a success means that the
request has been consumed. -/
theorem terminate_consumes_request
    (h : Reachable (System.step cpu) System.Initial KillsDoomed s)
    (ht : s.step cpu a = some t) : TerminateClean cpu s t := by
  intro hnone hr hwait
  have hstate := stateInv_of_reachable h
  have hcall := (callInv_of_reachable h).pc
  obtain ⟨hreturn, rfl⟩ := System.step_return ht hnone hr
  have hpc : s.manager.pc = .await ∧ s.getState = .monitorReady := by
    cases hreturn with
    | awaitReady hpc hready => exact ⟨hpc, hready⟩
    | ensureReady hpc hready =>
        rw [hpc] at hcall hwait
        rw [hcall.1] at hwait
        rcases hwait with hwait | hwait <;> cases hwait
    | started hpc hrunning =>
        rw [hpc] at hcall hwait
        obtain ⟨c, args, hc, hargs, -⟩ := hcall
        rw [hc] at hwait
        rcases hwait with hwait | hwait
        · cases hwait
          cases hargs
        · cases hwait
  obtain ⟨hgeneral, hword⟩ :=
    System.getState_eq hpc.2 ⟨nofun, nofun, nofun⟩
  have hconsumed : s.KillConsumed :=
    (awaitInv_of_reachable h hpc.1).resolve_left fun hdoomed =>
      hdoomed.state hword
  have hdone : (s.finish none).KillDone :=
    (hconsumed.done hword).sameExecutor (s.finish_sameExecutor none)
  exact hdone.over (.step h.toAny trivial ht) hgeneral

/-- A payload that has not confirmed its start is terminated, and the monitor
has restarted. -/
def terminatedSchedule : List Action :=
  startupSchedule ++ loadElfSchedule validElf 7 ++ validationSchedule ++
    entrySchedule ++ .timeout :: terminateSchedule ++ restartSchedule

theorem terminate_consumes_request_afterStart :
    ∃ s t, Reachable (System.step .cpu1) System.Initial KillsDoomed s ∧
      s.step .cpu1 .manager = some t ∧ t.manager.result = some none ∧
      t.managerLog.ipiSent = 1 ∧ t.KillOver .cpu1 := by
  obtain ⟨s, hreach, hpc, hready, hnone, hsent⟩ :=
    exists_reachable_of_restrict_run (System.step .cpu1) KillsDoomed
      terminatedSchedule
      (fun s => s.manager.pc = .await ∧ s.getState = .monitorReady ∧
        s.manager.result = none ∧ s.managerLog.ipiSent = 1)
      System.powerOn_initial (by decide +kernel)
  have ht : s.step .cpu1 .manager = some (s.finish none) := by
    simp [System.step, System.managerStep, System.awaitStep, hpc, hready]
  exact ⟨s, _, hreach, ht, rfl, hsent,
    terminate_consumes_request hreach ht hnone rfl (.inr hpc)⟩

/-- The monitor polls for commands, and the manager sees its `monitor_ready`
while the request is pending. -/
theorem not_terminate_consumes_request :
    ¬∀ s a t, Reachable (System.step .cpu1) System.Initial anyStep s →
      s.step .cpu1 a = some t → TerminateClean .cpu1 s t := by
  intro hall
  obtain ⟨s, -, hreach, hpc, hready, hnone, hpending⟩ :=
    exists_reachable_of_run (System.step .cpu1)
      (startupSchedule ++ terminateSchedule)
      (fun s => s.manager.pc = .await ∧ s.getState = .monitorReady ∧
        s.manager.result = none ∧ s.irq.killPending = true)
      System.powerOn_initial (by decide +kernel)
  have ht : s.step .cpu1 .manager = some (s.finish none) := by
    simp [System.step, System.managerStep, System.awaitStep, hpc, hready]
  have hover := hall s _ _ hreach ht hnone rfl (.inr hpc)
  have hdone := hover [] _ rfl rfl
  exact Bool.false_ne_true (hdone.pending.symm.trans hpending)

end Invariant

end Bmboot
