import Bmboot.System.Step

/-!
# What each side leaves alone

The manager's steps leave the core alone, apart from booting it, sending it a
kill request and initialising the shared block; the core's steps leave the
manager alone.  The last section says what a monitor call of the payload does
to the shared block.
-/

namespace Bmboot

/-- Behind the publication of `monitor_ready`, up to a payload. -/
def MonitorPc.InMain : MonitorPc → Prop
  | .loop _ | .noop _ | .command _ | .accepted _ | .rejected | .enterDummy
  | .el1 _ => True
  | .inReset | .fiq _ | .boot | .setup _ | .publishReady | .crashed => False

namespace System

/-! ## Steps of the manager -/

/-- The core, its half of the block and its log are the same, it has not been
booted, nobody has sent it a kill request, and the manager is at most about to
start it up. -/
structure SameExecutor (s t : System) : Prop where
  monitor : t.monitor = s.monitor
  irq : t.irq = s.irq
  inbox : t.ipc.executorToManager = s.ipc.executorToManager
  monitorLog : t.monitorLog = s.monitorLog
  generalState : t.manager.generalState = s.manager.generalState
  ipiSent : t.managerLog.ipiSent = s.managerLog.ipiSent
  startup : ∀ cntfrq pc, t.manager.pc = .startup cntfrq pc → pc = .guard

variable (s : System)

theorem finish_sameExecutor (r : MaybeError) : SameExecutor s (s.finish r) :=
  ⟨rfl, rfl, rfl, rfl, rfl, rfl, by rintro _ _ ⟨⟩⟩

theorem beginCall_sameExecutor (cpu : DomainIndex) (c : Call) :
    SameExecutor s (s.beginCall cpu c) := by
  refine ⟨rfl, rfl, rfl, rfl, rfl, rfl, ?_⟩
  intro cntfrq pc h
  cases c with
  | startup cntfrq =>
      cases h
      rfl
  | _ => cases h

theorem ensureStep_sameExecutor (cntfrq : BitVec 32) :
    SameExecutor s (s.ensureStep cntfrq) := by
  simp only [ensureStep]
  split_ifs
  · refine ⟨rfl, rfl, rfl, rfl, rfl, rfl, ?_⟩
    rintro _ _ ⟨⟩
    rfl
  all_goals exact ⟨rfl, rfl, rfl, rfl, rfl, rfl, by rintro _ _ ⟨⟩⟩

theorem loadStep_sameExecutor (load : Load) (pc : LoadPc) :
    SameExecutor s (s.loadStep load pc) := by
  match pc with
  | .checkState =>
      simp only [loadStep]
      split_ifs <;> exact ⟨rfl, rfl, rfl, rfl, rfl, rfl, by rintro _ _ ⟨⟩⟩
  | .map =>
      simp only [loadStep]
      split <;> exact ⟨rfl, rfl, rfl, rfl, rfl, rfl, by rintro _ _ ⟨⟩⟩
  | .store ((address, b) :: rest) => exact ⟨rfl, rfl, rfl, rfl, rfl, rfl, by rintro _ _ ⟨⟩⟩
  | .store [] =>
      simp only [loadStep]
      split <;> exact ⟨rfl, rfl, rfl, rfl, rfl, rfl, by rintro _ _ ⟨⟩⟩

theorem startStep_sameExecutor (args : StartArgs) (pc : StartPc) :
    SameExecutor s (s.startStep args pc) := by
  cases pc <;> simp only [startStep] <;> try split_ifs
  all_goals exact ⟨rfl, rfl, rfl, rfl, rfl, rfl, by rintro _ _ ⟨⟩⟩

theorem pollStep_sameExecutor (pc : PollPc) :
    SameExecutor s (s.pollStep pc) := by
  cases pc <;> simp only [pollStep] <;> try split_ifs
  all_goals exact ⟨rfl, rfl, rfl, rfl, rfl, rfl, by rintro _ _ ⟨⟩⟩

theorem awaitStep_sameExecutor (hpc : s.manager.pc = .await) :
    SameExecutor s s.awaitStep := by
  simp only [awaitStep]
  split_ifs
  · exact ⟨rfl, rfl, rfl, rfl, rfl, rfl, by rintro _ _ ⟨⟩⟩
  · refine ⟨rfl, rfl, rfl, rfl, rfl, rfl, ?_⟩
    intro cntfrq pc h
    rw [hpc] at h
    cases h

/-! Only `startPayloadAt` issues commands. -/

theorem ensureStep_issued (cntfrq : BitVec 32) :
    (s.ensureStep cntfrq).managerLog.issued = s.managerLog.issued := by
  simp only [ensureStep]
  split_ifs <;> rfl

theorem loadStep_issued (load : Load) (pc : LoadPc) :
    (s.loadStep load pc).managerLog.issued = s.managerLog.issued := by
  match pc with
  | .checkState =>
      simp only [loadStep]
      split_ifs <;> rfl
  | .map =>
      simp only [loadStep]
      split <;> rfl
  | .store ((address, b) :: rest) => rfl
  | .store [] =>
      simp only [loadStep]
      split <;> rfl

theorem pollStep_issued (pc : PollPc) :
    (s.pollStep pc).managerLog.issued = s.managerLog.issued := by
  cases pc <;> simp only [pollStep] <;> (try split_ifs) <;> rfl

theorem awaitStep_issued :
    s.awaitStep.managerLog.issued = s.managerLog.issued := by
  simp only [awaitStep]
  split_ifs <;> rfl

/-! ## Steps of the core -/

/-- The manager, its half of the block, payload memory and its log are the
same. -/
structure SameManager (s t : System) : Prop where
  manager : t.manager = s.manager
  outbox : t.ipc.managerToExecutor = s.ipc.managerToExecutor
  mem : t.mem = s.mem
  managerLog : t.managerLog = s.managerLog

theorem fiqStep_sameManager (cpu : DomainIndex) (pc : FiqPc) :
    SameManager s (s.fiqStep cpu pc) := by
  simp only [fiqStep]
  split <;> exact ⟨rfl, rfl, rfl, rfl⟩

theorem bootStep_sameManager : SameManager s s.bootStep :=
  ⟨rfl, rfl, rfl, rfl⟩

theorem setupStep_sameManager (cpu : DomainIndex) (pc : SetupPc) :
    SameManager s (s.setupStep cpu pc) := by
  simp only [setupStep]
  split <;> exact ⟨rfl, rfl, rfl, rfl⟩

theorem publishReadyStep_sameManager : SameManager s s.publishReadyStep :=
  ⟨rfl, rfl, rfl, rfl⟩

/-- A step of `main` behind the setup leaves the interrupt channel alone and
stays in `main`, or enters a payload. -/
structure MainFrame (s t : System) : Prop extends SameManager s t where
  monitor : t.monitor.InMain
  ipi : t.irq.ipi = s.irq.ipi
  ipiConsumed : t.monitorLog.ipiConsumed = s.monitorLog.ipiConsumed
  ipiSentAtReady : t.monitorLog.ipiSentAtReady = s.monitorLog.ipiSentAtReady

theorem loopStep_mainFrame (pc : LoopPc) : MainFrame s (s.loopStep pc) := by
  cases pc <;> simp only [loopStep] <;> try split_ifs
  all_goals exact ⟨⟨rfl, rfl, rfl, rfl⟩, trivial, rfl, rfl, rfl⟩

theorem noopStep_mainFrame (pc : NoopPc) : MainFrame s (s.noopStep pc) := by
  cases pc <;> exact ⟨⟨rfl, rfl, rfl, rfl⟩, trivial, rfl, rfl, rfl⟩

theorem commandStep_mainFrame (pc : CommandPc) :
    MainFrame s (s.commandStep pc) := by
  cases pc with
  | checkEntryAddress =>
      simp only [commandStep]
      split_ifs <;> exact ⟨⟨rfl, rfl, rfl, rfl⟩, trivial, rfl, rfl, rfl⟩
  | validate call pc =>
      simp only [commandStep]
      split <;> exact ⟨⟨rfl, rfl, rfl, rfl⟩, trivial, rfl, rfl, rfl⟩
  | writeAck resp ack =>
      simp only [commandStep]
      split_ifs <;> exact ⟨⟨rfl, rfl, rfl, rfl⟩, trivial, rfl, rfl, rfl⟩
  | _ => exact ⟨⟨rfl, rfl, rfl, rfl⟩, trivial, rfl, rfl, rfl⟩

theorem acceptedStep_mainFrame (pc : AcceptedPc) :
    MainFrame s (s.acceptedStep pc) := by
  cases pc <;> exact ⟨⟨rfl, rfl, rfl, rfl⟩, trivial, rfl, rfl, rfl⟩

theorem rejectedStep_mainFrame : MainFrame s s.rejectedStep :=
  ⟨⟨rfl, rfl, rfl, rfl⟩, trivial, rfl, rfl, rfl⟩

theorem enterDummyStep_mainFrame : MainFrame s s.enterDummyStep :=
  ⟨⟨rfl, rfl, rfl, rfl⟩, trivial, rfl, rfl, rfl⟩

theorem takeFiq_sameManager : SameManager s s.takeFiq :=
  ⟨rfl, rfl, rfl, rfl⟩

theorem abortStep_sameManager (regs : Aarch64Regs) (fpregs : Aarch64FpRegs)
    (faultAddress : BitVec 64) :
    SameManager s (s.abortStep regs fpregs faultAddress) :=
  ⟨rfl, rfl, rfl, rfl⟩

end System

/-! ## Monitor calls -/

/-- Everything in the block but the stdout ring is the same. -/
structure IpcBlock.SameButStdout (ipc ipc' : IpcBlock) : Prop where
  outbox : ipc'.managerToExecutor = ipc.managerToExecutor
  state : ipc'.executorToManager.state = ipc.executorToManager.state
  cmdAck : ipc'.executorToManager.cmdAck = ipc.executorToManager.cmdAck
  cmdResp : ipc'.executorToManager.cmdResp = ipc.executorToManager.cmdResp

theorem IpcBlock.SameButStdout.refl (ipc : IpcBlock) : ipc.SameButStdout ipc :=
  ⟨rfl, rfl, rfl, rfl⟩

theorem IpcBlock.SameButStdout.trans {a b c : IpcBlock}
    (h : a.SameButStdout b) (h' : b.SameButStdout c) : a.SameButStdout c :=
  ⟨h'.outbox.trans h.outbox, h'.state.trans h.state,
    h'.cmdAck.trans h.cmdAck, h'.cmdResp.trans h.cmdResp⟩

section WriteToStdout

variable {R : IpcBlock → IpcBlock → Prop} (refl : ∀ ipc, R ipc ipc)
  (trans : ∀ a b c, R a b → R b c → R a c)
  (store : ∀ (ipc : IpcBlock) i b wr,
    R ipc ((ipc.setStdoutByte i b).setStdoutWrpos wr))
include refl trans store

theorem writeLoop_relates (data : List UInt8) (ipc : IpcBlock) (wrote : ℕ) :
    R ipc (writeLoop ipc wrote data).1 := by
  induction data generalizing ipc wrote with
  | nil => exact refl ipc
  | cons b rest ih =>
      simp only [writeLoop]
      split
      · exact refl ipc
      · exact trans _ _ _ (store ..) (ih _ _)

/-- What holds over every store of a byte with its position, and over the reset
of the position, holds over a call of `writeToStdout`. -/
theorem writeToStdout_relates
    (reset : ∀ ipc : IpcBlock, R ipc (ipc.setStdoutWrpos 0))
    {depth : ℕ} {ipc ipc' : IpcBlock} {data : List UInt8} {count : BitVec 32}
    (h : writeToStdout depth ipc data = some (ipc', count)) : R ipc ipc' := by
  induction depth generalizing ipc ipc' data count with
  | zero => simp [writeToStdout] at h
  | succ depth ih =>
      simp only [writeToStdout] at h
      split at h
      · cases hreset : writeToStdout depth (ipc.setStdoutWrpos 0)
          wrposResetMessage with
        | none => simp [hreset] at h
        | some repaired =>
            simp only [hreset, Option.map_some, Option.bind_eq_bind,
              Option.bind_some, Option.some.injEq, Prod.mk.injEq] at h
            obtain ⟨rfl, -⟩ := h
            have hmessage := trans _ _ _ (reset ipc) (ih hreset)
            exact trans _ _ _ hmessage (writeLoop_relates refl trans store ..)
      · simp only [Option.bind_eq_bind, Option.bind_some, Option.some.injEq,
          Prod.mk.injEq] at h
        obtain ⟨rfl, -⟩ := h
        exact writeLoop_relates refl trans store ..

end WriteToStdout

theorem writeToStdout_sameButStdout {depth : ℕ} {ipc ipc' : IpcBlock}
    {data : List UInt8} {count : BitVec 32}
    (h : writeToStdout depth ipc data = some (ipc', count)) :
    ipc.SameButStdout ipc' := by
  refine writeToStdout_relates IpcBlock.SameButStdout.refl ?_ ?_ ?_ h
  · exact fun _ _ _ => IpcBlock.SameButStdout.trans
  · exact fun _ _ _ _ => ⟨rfl, rfl, rfl, rfl⟩
  · exact fun _ => ⟨rfl, rfl, rfl, rfl⟩

theorem writeToStdout_two_isSome (ipc : IpcBlock) (data : List UInt8) :
    (writeToStdout 2 ipc data).isSome = true := by
  rw [writeToStdout_two]
  rfl

namespace SmcCall

/-- One of the seven calls the monitor knows. -/
def Known (c : SmcCall) : Prop :=
  c.function ∈
    [smcGetAbiVersion, smcNotifyPayloadStarted, smcNotifyPayloadCrashed,
      smcWriteStdout] ++ interruptFunctions

instance (c : SmcCall) : Decidable c.Known :=
  inferInstanceAs (Decidable (_ ∈ _))

/-- What `handleSmc` can do. -/
theorem handleSmc_cases (cpu : DomainIndex) (core : Core) (c : SmcCall)
    {P : Core × Option Aarch64Regs → Prop}
    (started : c.function = smcNotifyPayloadStarted →
      P ({ core with ipc := core.ipc.reportPayloadStarted }, some c.regs))
    (crashed : ∀ desc address, c.function = smcNotifyPayloadCrashed →
      P ({ core with ipc := core.ipc.reportCrash .payload desc address },
        some c.regs))
    (stdout : ∀ ipc saved, c.function ≠ smcNotifyPayloadStarted →
      c.function ≠ smcNotifyPayloadCrashed → core.ipc.SameButStdout ipc →
      P ({ core with ipc := ipc }, some saved))
    (interrupt : ∀ irq, c.function ≠ smcNotifyPayloadStarted →
      c.function ≠ smcNotifyPayloadCrashed → irq.ipi = core.irq.ipi →
      P ({ core with irq := irq }, some c.regs))
    (unknown : ∀ desc address, ¬c.Known →
      P ({ core with ipc := core.ipc.reportCrash .monitor desc address },
        none)) :
    P (handleSmc cpu c.mem core c.regs) := by
  by_cases hstarted : c.function = smcNotifyPayloadStarted
  · have hres := started hstarted
    have hx0 : c.regs.regs 0 = smcNotifyPayloadStarted := hstarted
    simp only [handleSmc, hx0]
    exact hres
  by_cases hcrashed : c.function = smcNotifyPayloadCrashed
  · have hres := crashed (fun i => c.mem (c.regs.regs 1 + BitVec.ofNat 64 i))
      (c.regs.regs 2) hcrashed
    have hx0 : c.regs.regs 0 = smcNotifyPayloadCrashed := hcrashed
    simp only [handleSmc, hx0]
    exact hres
  have hx0 : c.regs.regs 0 ≠ smcNotifyPayloadStarted := hstarted
  have hx0' : c.regs.regs 0 ≠ smcNotifyPayloadCrashed := hcrashed
  simp only [handleSmc, hx0, hx0', if_false]
  split_ifs with habi hstdout hconfigure hdisable henable
  · exact stdout _ _ hstarted hcrashed (.refl _)
  · obtain ⟨⟨ipc, count⟩, hwrite⟩ := Option.isSome_iff_exists.mp
      (writeToStdout_two_isSome core.ipc
        (readBytes c.mem (c.regs.regs 1) (c.regs.regs 2).toNat))
    rw [hwrite]
    exact stdout _ _ hstarted hcrashed (writeToStdout_sameButStdout hwrite)
  · exact interrupt _ hstarted hcrashed 
      (Interrupts.smcConfigure_sameInterface ..).ipi
  · exact interrupt _ hstarted hcrashed rfl
  · exact interrupt _ hstarted hcrashed rfl
  · refine unknown _ _ ?_
    simp only [Known, function, interruptFunctions, List.mem_append,
      List.mem_cons, List.not_mem_nil]
    simp [*]

end SmcCall

namespace System

/-- What a monitor call does to the rest of the system. -/
inductive SmcEffect (s t : System) (c : SmcCall) : Prop
  /-- The payload confirms its start. -/
  | started (hc : c.function = smcNotifyPayloadStarted)
      (hmonitor : t.monitor = .el1 .payload)
      (hstate : t.ipc.executorToManager.state = DomainState.runningPayload.code)
      (hreports : t.monitorLog.reports = s.monitorLog.reports ++ [.started])
  /-- The payload reports its crash. -/
  | crashed (hc : c.function = smcNotifyPayloadCrashed)
      (hmonitor : t.monitor = .el1 .payload)
      (hstate : t.ipc.executorToManager.state = DomainState.crashedPayload.code)
      (hreports : t.monitorLog.reports = s.monitorLog.reports ++ [.crashed])
  /-- Any other call the monitor knows. -/
  | other (hmonitor : t.monitor = .el1 .payload)
      (hstate : t.ipc.executorToManager.state = s.ipc.executorToManager.state)
      (hreports : t.monitorLog.reports = s.monitorLog.reports)
  /-- An unknown call crashes the monitor. -/
  | unknown (hc : ¬c.Known)
      (hmonitor : t.monitor = .crashed)
      (hmasked : t.irq.fiqMasked = true)
      (hstate : t.ipc.executorToManager.state = DomainState.crashedMonitor.code)
      (hreports : t.monitorLog.reports = s.monitorLog.reports)

variable (cpu : DomainIndex) (s : System) (c : SmcCall)

theorem smcStep_effect : SmcEffect s (s.smcStep cpu c) c := by
  have hreport : ∀ f, c.function = f → SmcCall.report c =
      if f = smcNotifyPayloadStarted then [.started]
      else if f = smcNotifyPayloadCrashed then [.crashed] else [] := by
    rintro f rfl
    rfl
  refine SmcCall.handleSmc_cases cpu ⟨s.ipc, s.irq⟩ c
    (P := fun r => SmcEffect s
      { s with
        ipc := r.1.ipc
        irq := if r.2.isSome then r.1.irq else r.1.irq.maskAll
        monitor := if r.2.isSome then .el1 .payload else .crashed
        monitorLog :=
          { s.monitorLog with
            reports := s.monitorLog.reports ++ SmcCall.report c } } c)
    ?_ ?_ ?_ ?_ ?_
  · intro hc
    exact .started hc rfl rfl (by rw [hreport _ hc]; rfl)
  · intro desc address hc
    exact .crashed hc rfl rfl (by rw [hreport _ hc]; rfl)
  · intro ipc saved hstarted hcrashed hsame
    refine .other rfl hsame.state ?_
    simp [hreport _ rfl, hstarted, hcrashed]
  · intro irq hstarted hcrashed hipi
    refine .other rfl rfl ?_
    simp [hreport _ rfl, hstarted, hcrashed]
  · intro desc address hc
    have hstarted : c.function ≠ smcNotifyPayloadStarted := by
      intro hf
      exact hc (by simp [SmcCall.Known, hf])
    have hcrashed : c.function ≠ smcNotifyPayloadCrashed := by
      intro hf
      exact hc (by simp [SmcCall.Known, hf])
    refine .unknown hc rfl (Interrupts.fiqMasked_maskAll _) rfl ?_
    simp [hreport _ rfl, hstarted, hcrashed]

theorem smcStep_monitor :
    (s.smcStep cpu c).monitor = .el1 .payload ∨
      (s.smcStep cpu c).monitor = .crashed := by
  rcases smcStep_effect cpu s c with
    ⟨-, hmonitor⟩ | ⟨-, hmonitor⟩ | ⟨hmonitor⟩ | ⟨-, hmonitor⟩
  · exact .inl hmonitor
  · exact .inl hmonitor
  · exact .inl hmonitor
  · exact .inr hmonitor

/-- What every monitor call leaves alone. -/
structure SmcFrame (s t : System) : Prop extends SameManager s t where
  cmdAck : t.ipc.executorToManager.cmdAck = s.ipc.executorToManager.cmdAck
  cmdResp : t.ipc.executorToManager.cmdResp = s.ipc.executorToManager.cmdResp
  ipi : t.irq.ipi = s.irq.ipi
  monitorLog : t.monitorLog =
    { s.monitorLog with reports := t.monitorLog.reports }

theorem smcStep_frame : SmcFrame s (s.smcStep cpu c) := by
  refine SmcCall.handleSmc_cases cpu ⟨s.ipc, s.irq⟩ c
    (P := fun r => SmcFrame s
      { s with
        ipc := r.1.ipc
        irq := if r.2.isSome then r.1.irq else r.1.irq.maskAll
        monitor := if r.2.isSome then .el1 .payload else .crashed
        monitorLog :=
          { s.monitorLog with
            reports := s.monitorLog.reports ++ SmcCall.report c } })
    ?_ ?_ ?_ ?_ ?_
  · intro hc
    exact ⟨⟨rfl, rfl, rfl, rfl⟩, rfl, rfl, rfl, rfl⟩
  · intro desc address hc
    exact ⟨⟨rfl, rfl, rfl, rfl⟩, rfl, rfl, rfl, rfl⟩
  · intro ipc saved _ _ hsame
    exact ⟨⟨rfl, hsame.outbox, rfl, rfl⟩, hsame.cmdAck, hsame.cmdResp, rfl,
      rfl⟩
  · intro irq _ _ hipi
    exact ⟨⟨rfl, rfl, rfl, rfl⟩, rfl, rfl, hipi, rfl⟩
  · intro desc address _
    exact ⟨⟨rfl, rfl, rfl, rfl⟩, rfl, rfl, rfl, rfl⟩

/-! ## Kinds of steps -/

/-- A step is one of the manager's, or it leaves the manager alone. -/
theorem step_cases_manager
    {cpu : DomainIndex} {s t : System} {a : Action}
    {P : Action → System → Prop}
    (h : s.step cpu a = some t)
    (call : ∀ c, s.manager.pc = .idle → P (.call c) (s.beginCall cpu c))
    (startup : ∀ cntfrq pc, s.manager.pc = .startup cntfrq pc →
      P .manager (s.startupStep cntfrq pc))
    (ensure : ∀ cntfrq, s.manager.pc = .ensure cntfrq →
      P .manager (s.ensureStep cntfrq))
    (load : ∀ load pc, s.manager.pc = .load load pc →
      P .manager (s.loadStep load pc))
    (start : ∀ args pc, s.manager.pc = .start args pc →
      P .manager (s.startStep args pc))
    (poll : ∀ pc, s.manager.pc = .poll pc → P .manager (s.pollStep pc))
    (terminate : ∀ pc, s.manager.pc = .terminate pc →
      P .manager (s.terminateStep pc))
    (await : s.manager.pc = .await → P .manager s.awaitStep)
    (fail : ∀ e, e ∈ failures s.manager.pc → P (.fail e) (s.finish (some e)))
    (startTimeout : s.manager.pc = .poll .readAck →
      P .timeout (s.finish (some .payloadStartTimedOut)))
    (awaitTimeout : s.manager.pc = .await →
      P .timeout (s.finish (some .monitorStartTimedOut)))
    (core : ∀ a t, s.step cpu a = some t → a.OfCore → SameManager s t →
      P a t) :
    P a t := by
  have hP : s.step cpu a = some t → P a t := by
    refine step_cases (P := fun a t => s.step cpu a = some t → P a t) h
      (fun c hpc _ => call c hpc) (fun cntfrq pc hpc _ => startup cntfrq pc hpc)
      (fun cntfrq hpc _ => ensure cntfrq hpc)
      (fun l pc hpc _ => load l pc hpc)
      (fun args pc hpc _ => start args pc hpc) (fun pc hpc _ => poll pc hpc)
      (fun pc hpc _ => terminate pc hpc) (fun hpc _ => await hpc)
      (fun e he _ => fail e he) (fun hpc _ => startTimeout hpc)
      (fun hpc _ => awaitTimeout hpc)
      (fun pc _ ht => core _ _ ht trivial (s.fiqStep_sameManager cpu pc))
      (fun _ ht => core _ _ ht trivial s.bootStep_sameManager)
      (fun pc _ ht => core _ _ ht trivial (s.setupStep_sameManager cpu pc))
      (fun _ ht => core _ _ ht trivial s.publishReadyStep_sameManager)
      (fun pc _ ht => core _ _ ht trivial (s.loopStep_mainFrame pc).toSameManager)
      (fun pc _ ht => core _ _ ht trivial (s.noopStep_mainFrame pc).toSameManager)
      (fun pc _ ht => core _ _ ht trivial (s.commandStep_mainFrame pc).toSameManager)
      (fun pc _ ht => core _ _ ht trivial (s.acceptedStep_mainFrame pc).toSameManager)
      (fun _ ht => core _ _ ht trivial s.rejectedStep_mainFrame.toSameManager)
      (fun _ ht => core _ _ ht trivial s.enterDummyStep_mainFrame.toSameManager)
      (fun _ _ _ ht => core _ _ ht trivial s.takeFiq_sameManager)
      (fun c _ ht =>
        core _ _ ht trivial (smcStep_frame cpu s c).toSameManager)
      (fun regs fpregs faultAddress _ _ _ ht => core _ _ ht trivial
        (s.abortStep_sameManager regs fpregs faultAddress))
  exact hP h

/-- A step is one of the core's, starts it up, asks for a kill, or leaves the
core alone. -/
theorem step_cases_core
    {cpu : DomainIndex} {s t : System} {a : Action}
    {P : Action → System → Prop}
    (h : s.step cpu a = some t)
    (startup : ∀ cntfrq pc, s.manager.pc = .startup cntfrq pc →
      P .manager (s.startupStep cntfrq pc))
    (terminate : ∀ pc, s.manager.pc = .terminate pc →
      P .manager (s.terminateStep pc))
    (manager : ∀ a t, s.step cpu a = some t → SameExecutor s t → P a t)
    (fiqStep : ∀ pc, s.monitor = .fiq pc → P .monitor (s.fiqStep cpu pc))
    (bootStep : s.monitor = .boot → P .monitor s.bootStep)
    (setupStep : ∀ pc, s.monitor = .setup pc → P .monitor (s.setupStep cpu pc))
    (publishReady : s.monitor = .publishReady →
      P .monitor s.publishReadyStep)
    (loop : ∀ pc, s.monitor = .loop pc → P .monitor (s.loopStep pc))
    (noop : ∀ pc, s.monitor = .noop pc → P .monitor (s.noopStep pc))
    (command : ∀ pc, s.monitor = .command pc → P .monitor (s.commandStep pc))
    (accepted : ∀ pc, s.monitor = .accepted pc →
      P .monitor (s.acceptedStep pc))
    (rejected : s.monitor = .rejected → P .monitor s.rejectedStep)
    (enterDummy : s.monitor = .enterDummy → P .monitor s.enterDummyStep)
    (fiq : s.monitor ≠ .inReset → s.irq.fiqSignalled cpu = true →
      s.irq.fiqMasked = false → P .fiq s.takeFiq)
    (smc : ∀ c, s.monitor = .el1 .payload → P (.smc c) (s.smcStep cpu c))
    (abort : ∀ regs fpregs faultAddress call pc,
      s.monitor = .command (.validate call pc) →
      P (.abort regs fpregs faultAddress)
        (s.abortStep regs fpregs faultAddress)) :
    P a t := by
  have hP : s.step cpu a = some t → P a t := by
    refine step_cases (P := fun a t => s.step cpu a = some t → P a t) h
      (fun c _ ht => manager _ _ ht (s.beginCall_sameExecutor cpu c))
      (fun cntfrq pc hpc _ => startup cntfrq pc hpc)
      (fun cntfrq _ ht => manager _ _ ht (s.ensureStep_sameExecutor cntfrq))
      (fun l pc _ ht => manager _ _ ht (s.loadStep_sameExecutor l pc))
      (fun args pc _ ht => manager _ _ ht (s.startStep_sameExecutor args pc))
      (fun pc _ ht => manager _ _ ht (s.pollStep_sameExecutor pc))
      (fun pc hpc _ => terminate pc hpc)
      (fun hpc ht => manager _ _ ht (s.awaitStep_sameExecutor hpc))
      (fun e _ ht => manager _ _ ht (s.finish_sameExecutor _))
      (fun _ ht => manager _ _ ht (s.finish_sameExecutor _))
      (fun _ ht => manager _ _ ht (s.finish_sameExecutor _))
      (fun pc hpc _ => fiqStep pc hpc) (fun hpc _ => bootStep hpc)
      (fun pc hpc _ => setupStep pc hpc) (fun hpc _ => publishReady hpc)
      (fun pc hpc _ => loop pc hpc) (fun pc hpc _ => noop pc hpc)
      (fun pc hpc _ => command pc hpc) (fun pc hpc _ => accepted pc hpc)
      (fun hpc _ => rejected hpc) (fun hpc _ => enterDummy hpc)
      (fun hreset hsignal hmask _ => fiq hreset hsignal hmask)
      (fun c hpc _ => smc c hpc)
      (fun regs fpregs faultAddress call pc hpc _ =>
        abort regs fpregs faultAddress call pc hpc)
  exact hP h

/-- As `step_cases_core`, with the steps of `main` behind the setup as one
case. -/
theorem step_cases_main
    {cpu : DomainIndex} {s t : System} {a : Action}
    {P : Action → System → Prop}
    (h : s.step cpu a = some t)
    (startup : ∀ cntfrq pc, s.manager.pc = .startup cntfrq pc →
      P .manager (s.startupStep cntfrq pc))
    (terminate : ∀ pc, s.manager.pc = .terminate pc →
      P .manager (s.terminateStep pc))
    (manager : ∀ a t, s.step cpu a = some t → SameExecutor s t → P a t)
    (fiqStep : ∀ pc, s.monitor = .fiq pc → P .monitor (s.fiqStep cpu pc))
    (bootStep : s.monitor = .boot → P .monitor s.bootStep)
    (setupStep : ∀ pc, s.monitor = .setup pc → P .monitor (s.setupStep cpu pc))
    (publishReady : s.monitor = .publishReady →
      P .monitor s.publishReadyStep)
    (main : ∀ t, s.monitor.InMain → MainFrame s t → P .monitor t)
    (fiq : s.monitor ≠ .inReset → s.irq.fiqSignalled cpu = true →
      s.irq.fiqMasked = false → P .fiq s.takeFiq)
    (smc : ∀ c, s.monitor = .el1 .payload → P (.smc c) (s.smcStep cpu c))
    (abort : ∀ regs fpregs faultAddress call pc,
      s.monitor = .command (.validate call pc) →
      P (.abort regs fpregs faultAddress)
        (s.abortStep regs fpregs faultAddress)) :
    P a t := by
  have hmain : ∀ {t pc}, s.monitor = pc → pc.InMain → MainFrame s t →
      P .monitor t := by
    rintro t pc rfl hpc hframe
    exact main t hpc hframe
  exact step_cases_core h startup terminate manager fiqStep bootStep setupStep
    publishReady (fun pc hpc => hmain hpc trivial (s.loopStep_mainFrame pc))
    (fun pc hpc => hmain hpc trivial (s.noopStep_mainFrame pc))
    (fun pc hpc => hmain hpc trivial (s.commandStep_mainFrame pc))
    (fun pc hpc => hmain hpc trivial (s.acceptedStep_mainFrame pc))
    (fun hpc => hmain hpc trivial s.rejectedStep_mainFrame)
    (fun hpc => hmain hpc trivial s.enterDummyStep_mainFrame) fiq smc abort

/-- A step of the core. -/
theorem step_cases_ofCore
    {cpu : DomainIndex} {s t : System} {a : Action}
    {P : Action → System → Prop}
    (h : s.step cpu a = some t) (ha : a.OfCore)
    (fiqStep : ∀ pc, s.monitor = .fiq pc → P .monitor (s.fiqStep cpu pc))
    (bootStep : s.monitor = .boot → P .monitor s.bootStep)
    (setupStep : ∀ pc, s.monitor = .setup pc → P .monitor (s.setupStep cpu pc))
    (publishReady : s.monitor = .publishReady →
      P .monitor s.publishReadyStep)
    (loop : ∀ pc, s.monitor = .loop pc → P .monitor (s.loopStep pc))
    (noop : ∀ pc, s.monitor = .noop pc → P .monitor (s.noopStep pc))
    (command : ∀ pc, s.monitor = .command pc → P .monitor (s.commandStep pc))
    (accepted : ∀ pc, s.monitor = .accepted pc →
      P .monitor (s.acceptedStep pc))
    (rejected : s.monitor = .rejected → P .monitor s.rejectedStep)
    (enterDummy : s.monitor = .enterDummy → P .monitor s.enterDummyStep)
    (fiq : s.monitor ≠ .inReset → s.irq.fiqSignalled cpu = true →
      s.irq.fiqMasked = false → P .fiq s.takeFiq)
    (smc : ∀ c, s.monitor = .el1 .payload → P (.smc c) (s.smcStep cpu c))
    (abort : ∀ regs fpregs faultAddress call pc,
      s.monitor = .command (.validate call pc) →
      P (.abort regs fpregs faultAddress)
        (s.abortStep regs fpregs faultAddress)) :
    P a t := by
  have hP : a.OfCore → P a t := by
    have hmanager : ∀ {a t}, ¬a.OfCore → a.OfCore → P a t := by
      intro a t hnot hcore
      exact absurd hcore hnot
    exact step_cases (P := fun a t => a.OfCore → P a t) h
      (fun _ _ => hmanager not_false) (fun _ _ _ => hmanager not_false)
      (fun _ _ => hmanager not_false) (fun _ _ _ => hmanager not_false)
      (fun _ _ _ => hmanager not_false) (fun _ _ => hmanager not_false)
      (fun _ _ => hmanager not_false) (fun _ => hmanager not_false)
      (fun _ _ => hmanager not_false) (fun _ => hmanager not_false)
      (fun _ => hmanager not_false)
      (fun pc hpc _ => fiqStep pc hpc) (fun hpc _ => bootStep hpc)
      (fun pc hpc _ => setupStep pc hpc) (fun hpc _ => publishReady hpc)
      (fun pc hpc _ => loop pc hpc) (fun pc hpc _ => noop pc hpc)
      (fun pc hpc _ => command pc hpc) (fun pc hpc _ => accepted pc hpc)
      (fun hpc _ => rejected hpc) (fun hpc _ => enterDummy hpc)
      (fun hreset hsignal hmask _ => fiq hreset hsignal hmask)
      (fun c hpc _ => smc c hpc)
      (fun regs fpregs faultAddress call pc hpc _ =>
        abort regs fpregs faultAddress call pc hpc)
  exact hP ha

end System

end Bmboot
