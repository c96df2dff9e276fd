import Bmboot.System.Frame
import Bmboot.Lib.StepSystem

/-!
# The published state

The word `state` of the shared block against what the core is doing.  While
the monitor runs its main loop, or a payload runs, the word is determined; a
restart leaves it as it found it until `monitor_ready` is published.
-/

namespace Bmboot

open StepSystem

/-- The state word that a running payload has reached. -/
inductive PayloadState (state : BitVec 32) (reports : List Report) : Prop
  | starting (hstate : state = DomainState.startingPayload.code)
      (hreports : reports = [])
  | running (hstate : state = DomainState.runningPayload.code)
      (hreports : reports.getLast? = some .started)
  | crashed (hstate : state = DomainState.crashedPayload.code)
      (hreports : reports.getLast? = some .crashed)

/-- The state words a restart may find. -/
def RestartState (state : BitVec 32) : Prop :=
  state ∈
    [DomainState.invalidState.code, DomainState.monitorReady.code,
      DomainState.startingPayload.code, DomainState.runningPayload.code,
      DomainState.crashedPayload.code]

/-- The state word at each point of the core. -/
def MonitorPc.StateOk (state : BitVec 32) (reports : List Report) :
    MonitorPc → Prop
  | .inReset => True
  | .fiq _ | .boot | .setup _ | .publishReady => RestartState state
  | .loop _ | .noop _ | .command .writeState =>
      state = DomainState.monitorReady.code
  | .command _ | .accepted _ | .rejected | .enterDummy | .el1 .dummy =>
      state = DomainState.startingPayload.code
  | .el1 .payload => PayloadState state reports
  | .crashed => state = DomainState.crashedMonitor.code

/-- The state word during startup, before the core is released. -/
def StartupPc.StateOk (monitor : MonitorPc) (state : BitVec 32) :
    StartupPc → Prop
  | .guard => True
  | .clearIpc | .writeState => monitor = .inReset
  | .writeCntfrq | .bootCore =>
      monitor = .inReset ∧ state = DomainState.invalidState.code

/-- The state word is right for a released core, and a crashed monitor takes no
more interrupts. -/
structure System.CoreOk (s : System) : Prop where
  notReset : s.monitor ≠ .inReset
  state : s.monitor.StateOk s.ipc.executorToManager.state s.monitorLog.reports
  masked : s.monitor = .crashed → s.irq.fiqMasked = true

structure StateInv (s : System) : Prop where
  state : s.monitor.StateOk s.ipc.executorToManager.state s.monitorLog.reports
  startup : ∀ cntfrq pc, s.manager.pc = .startup cntfrq pc →
    pc.StateOk s.monitor s.ipc.executorToManager.state
  general : s.manager.generalState = .inReset ∧ s.monitor = .inReset ∨
    s.manager.generalState = .monitorStarted ∧ s.monitor ≠ .inReset
  masked : s.monitor = .crashed → s.irq.fiqMasked = true

theorem PayloadState.restart {state : BitVec 32} {reports : List Report}
    (h : PayloadState state reports) : RestartState state := by
  rcases h with ⟨hstate, -⟩ | ⟨hstate, -⟩ | ⟨hstate, -⟩ <;>
    simp [RestartState, hstate]

/-- Wherever the core is, a restart from there finds one of the restart
states. -/
theorem MonitorPc.StateOk.restart
    {state : BitVec 32} {reports : List Report} {pc : MonitorPc}
    (h : pc.StateOk state reports) (hreset : pc ≠ .inReset)
    (hcrashed : pc ≠ .crashed) : RestartState state := by
  have hready : state = DomainState.monitorReady.code →
      RestartState state := by
    rintro rfl
    simp [RestartState]
  have hstarting : state = DomainState.startingPayload.code →
      RestartState state := by
    rintro rfl
    simp [RestartState]
  cases pc with
  | inReset => exact absurd rfl hreset
  | fiq | boot | setup | publishReady => exact h
  | loop | noop => exact hready h
  | command pc =>
      cases pc with
      | writeState => exact hready h
      | _ => exact hstarting h
  | accepted | rejected | enterDummy => exact hstarting h
  | el1 code =>
      cases code with
      | dummy => exact hstarting h
      | payload => exact PayloadState.restart h
  | crashed => exact absurd rfl hcrashed

/-- A state that only the executor publishes is read from the block. -/
theorem System.getState_eq {s : System} {st : DomainState}
    (h : s.getState = st)
    (hst : st ≠ .inReset ∧ st ≠ .unavailable ∧ st ≠ .invalidState) :
    s.manager.generalState = .monitorStarted ∧
      s.ipc.executorToManager.state = st.code := by
  obtain ⟨hreset, hunavailable, hinvalid⟩ := hst
  have hraw : ∀ raw : BitVec 32, DomainState.ofRaw raw = st →
      raw = st.code := by
    intro raw hof
    unfold DomainState.ofRaw at hof
    split_ifs at hof with h0 h1 h2 h3 h4 h5 h6
    · exact absurd hof.symm hreset
    · rw [h1, ← hof]
      rfl
    · rw [h2, ← hof]
      rfl
    · rw [h3, ← hof]
      rfl
    · rw [h4, ← hof]
      rfl
    · rw [h5, ← hof]
      rfl
    · exact absurd hof.symm hunavailable
    · exact absurd hof.symm hinvalid
  cases hgeneral : s.manager.generalState with
  | inReset =>
      simp only [System.getState, Bmboot.getState, hgeneral] at h
      exact absurd h.symm hreset
  | unavailable =>
      simp only [System.getState, Bmboot.getState, hgeneral] at h
      exact absurd h.symm hunavailable
  | monitorStarted =>
      simp only [System.getState, Bmboot.getState, hgeneral] at h
      exact ⟨rfl, hraw _ h⟩

theorem System.getState_of_code {s : System} {st : DomainState}
    (hgeneral : s.manager.generalState = .monitorStarted)
    (hstate : s.ipc.executorToManager.state = st.code) : s.getState = st := by
  simp [System.getState, Bmboot.getState, hgeneral, hstate]

section Invariant

variable {cpu : DomainIndex} {s t : System} {a : Action}

theorem StateInv.initial (h : s.Initial) : StateInv s where
  state := by simp [h.monitor, MonitorPc.StateOk]
  startup := by simp [h.pc]
  general := .inl ⟨h.generalState, h.monitor⟩
  masked := by simp [h.monitor]

theorem StateInv.started
    (hs : StateInv s) (hreset : s.monitor ≠ .inReset) :
    s.manager.generalState = .monitorStarted := by
  rcases hs.general with ⟨-, hin⟩ | ⟨hgeneral, -⟩
  · exact absurd hin hreset
  · exact hgeneral

/-- Steps of the manager outside startup. -/
theorem StateInv.sameExecutor
    (hs : StateInv s) (hsame : System.SameExecutor s t) :
    StateInv t where
  state := by
    rw [hsame.monitor, hsame.inbox, hsame.monitorLog]
    exact hs.state
  startup := by
    intro cntfrq pc h
    rw [hsame.startup cntfrq pc h]
    trivial
  general := by
    rw [hsame.monitor, hsame.generalState]
    exact hs.general
  masked := by
    rw [hsame.monitor, hsame.irq]
    exact hs.masked

/-- Steps of the core. -/
theorem StateInv.sameManager
    (hs : StateInv s) (hsame : System.SameManager s t)
    (hreset : s.monitor ≠ .inReset) (hcore : t.CoreOk) :
    StateInv t where
  state := hcore.state
  startup := by
    intro cntfrq pc h
    rw [hsame.manager] at h
    have hok := hs.startup cntfrq pc h
    cases pc with
    | guard => trivial
    | clearIpc => exact absurd hok hreset
    | writeState => exact absurd hok hreset
    | writeCntfrq => exact absurd hok.1 hreset
    | bootCore => exact absurd hok.1 hreset
  general := by
    rw [hsame.manager]
    exact .inr ⟨hs.started hreset, hcore.notReset⟩
  masked := hcore.masked

theorem StateInv.startupStep
    (hs : StateInv s) {cntfrq : BitVec 32} {pc : StartupPc}
    (hpc : s.manager.pc = .startup cntfrq pc) :
    StateInv (s.startupStep cntfrq pc) := by
  have hok := hs.startup cntfrq pc hpc
  cases pc with
  | guard =>
      simp only [System.startupStep]
      split_ifs with hgeneral
      · exact ⟨hs.state, fun _ _ h => (by cases h), hs.general, hs.masked⟩
      · have hin : s.monitor = .inReset := by
          rcases hs.general with ⟨-, hin⟩ | ⟨hstarted, -⟩
          · exact hin
          · exact absurd (not_not.mp hgeneral) (by simp [hstarted])
        refine ⟨hs.state, ?_, hs.general, hs.masked⟩
        intro _ _ h
        cases h
        exact hin
  | clearIpc =>
      have hin : s.monitor = .inReset := hok
      refine ⟨?_, ?_, hs.general, hs.masked⟩
      · simp [System.startupStep, System.gotoManager, hin, MonitorPc.StateOk]
      · intro _ _ h
        cases h
        exact hin
  | writeState =>
      have hin : s.monitor = .inReset := hok
      refine ⟨?_, ?_, hs.general, hs.masked⟩
      · simp [System.startupStep, System.gotoManager, hin, MonitorPc.StateOk]
      · intro _ _ h
        cases h
        exact ⟨hin, rfl⟩
  | writeCntfrq =>
      refine ⟨hs.state, ?_, hs.general, hs.masked⟩
      intro _ _ h
      cases h
      exact hok
  | bootCore =>
      obtain ⟨hin, hstate⟩ := hok
      simp only [System.startupStep, hin]
      refine ⟨?_, fun _ _ h => (by cases h), .inr ⟨rfl, by simp⟩, by simp⟩
      simp [MonitorPc.StateOk, RestartState, hstate]

theorem StateInv.terminateStep
    (hs : StateInv s) (pc : TerminatePc) : StateInv (s.terminateStep pc) := by
  cases pc with
  | guard =>
      simp only [System.terminateStep]
      split_ifs <;>
        exact ⟨hs.state, fun _ _ h => (by cases h), hs.general, hs.masked⟩
  | writeCmd => exact ⟨hs.state, fun _ _ h => (by cases h), hs.general, hs.masked⟩
  | sendIpi => exact ⟨hs.state, fun _ _ h => (by cases h), hs.general, hs.masked⟩

theorem StateInv.commandStep
    (hs : StateInv s) {pc : CommandPc} (hpc : s.monitor = .command pc) :
    StateInv (s.commandStep pc) := by
  have hstate := hs.state
  rw [hpc] at hstate
  refine hs.sameManager (s.commandStep_mainFrame pc).toSameManager (by simp [hpc]) ?_
  cases pc with
  | writeState => exact ⟨(by rintro ⟨⟩), rfl, (by rintro ⟨⟩)⟩
  | checkEntryAddress =>
      simp only [System.commandStep]
      split_ifs
      · exact ⟨(by rintro ⟨⟩), hstate, (by rintro ⟨⟩)⟩
      · exact ⟨(by rintro ⟨⟩), hstate, (by rintro ⟨⟩)⟩
  | validate call pc =>
      simp only [System.commandStep]
      split
      · exact ⟨(by rintro ⟨⟩), hstate, (by rintro ⟨⟩)⟩
      · exact ⟨(by rintro ⟨⟩), hstate, (by rintro ⟨⟩)⟩
  | writeAck resp ack =>
      simp only [System.commandStep]
      split_ifs
      · exact ⟨(by rintro ⟨⟩), hstate, (by rintro ⟨⟩)⟩
      · exact ⟨(by rintro ⟨⟩), hstate, (by rintro ⟨⟩)⟩
  | _ => exact ⟨(by rintro ⟨⟩), hstate, (by rintro ⟨⟩)⟩

theorem StateInv.fiqStep
    (hs : StateInv s) {pc : FiqPc} (hpc : s.monitor = .fiq pc) :
    StateInv (s.fiqStep cpu pc) := by
  have hstate := hs.state
  rw [hpc] at hstate
  refine hs.sameManager (s.fiqStep_sameManager cpu pc) (by simp [hpc]) ?_
  simp only [System.fiqStep]
  split
  · exact ⟨(by rintro ⟨⟩), hstate, (by rintro ⟨⟩)⟩
  · exact ⟨(by rintro ⟨⟩), hstate, (by rintro ⟨⟩)⟩
  · exact ⟨(by rintro ⟨⟩), rfl, fun _ => Interrupts.fiqMasked_maskAll _⟩

theorem StateInv.setupStep
    (hs : StateInv s) {pc : SetupPc} (hpc : s.monitor = .setup pc) :
    StateInv (s.setupStep cpu pc) := by
  have hstate := hs.state
  rw [hpc] at hstate
  refine hs.sameManager (s.setupStep_sameManager cpu pc) (by simp [hpc]) ?_
  simp only [System.setupStep]
  split
  · exact ⟨(by rintro ⟨⟩), hstate, (by rintro ⟨⟩)⟩
  · exact ⟨(by rintro ⟨⟩), hstate, (by rintro ⟨⟩)⟩

theorem StateInv.loopStep
    (hs : StateInv s) {pc : LoopPc} (hpc : s.monitor = .loop pc) :
    StateInv (s.loopStep pc) := by
  have hstate := hs.state
  rw [hpc] at hstate
  refine hs.sameManager (s.loopStep_mainFrame pc).toSameManager (by simp [hpc]) ?_
  cases pc <;> simp only [System.loopStep] <;> try split_ifs
  all_goals exact ⟨(by rintro ⟨⟩), hstate, (by rintro ⟨⟩)⟩

theorem StateInv.noopStep
    (hs : StateInv s) {pc : NoopPc} (hpc : s.monitor = .noop pc) :
    StateInv (s.noopStep pc) := by
  have hstate := hs.state
  rw [hpc] at hstate
  refine hs.sameManager (s.noopStep_mainFrame pc).toSameManager (by simp [hpc]) ?_
  cases pc with
  | readAck => exact ⟨nofun, hstate, nofun⟩
  | writeAck ack => exact ⟨nofun, hstate, nofun⟩

theorem StateInv.acceptedStep
    (hs : StateInv s) {pc : AcceptedPc} (hpc : s.monitor = .accepted pc) :
    StateInv (s.acceptedStep pc) := by
  have hstate := hs.state
  rw [hpc] at hstate
  refine hs.sameManager (s.acceptedStep_mainFrame pc).toSameManager (by simp [hpc]) ?_
  cases pc with
  | readEntryAddress => exact ⟨nofun, hstate, nofun⟩
  | enterEl1 address => exact ⟨nofun, .starting hstate rfl, nofun⟩

theorem StateInv.smcStep
    (hs : StateInv s) (c : SmcCall) (hpc : s.monitor = .el1 .payload) :
    StateInv (s.smcStep cpu c) := by
  have hstate := hs.state
  rw [hpc] at hstate
  have hframe := System.smcStep_frame cpu s c
  refine hs.sameManager hframe.toSameManager (by simp [hpc]) ?_
  rcases System.smcStep_effect cpu s c with
    ⟨-, hmonitor, hword, hreports⟩ | ⟨-, hmonitor, hword, hreports⟩ |
      ⟨hmonitor, hword, hreports⟩ | ⟨-, hmonitor, hmasked, hword, -⟩
  · refine ⟨by simp [hmonitor], ?_, by simp [hmonitor]⟩
    rw [hmonitor]
    exact .running hword (by simp [hreports])
  · refine ⟨by simp [hmonitor], ?_, by simp [hmonitor]⟩
    rw [hmonitor]
    exact .crashed hword (by simp [hreports])
  · refine ⟨by simp [hmonitor], ?_, by simp [hmonitor]⟩
    rw [hmonitor, hword, hreports]
    exact hstate
  · refine ⟨by simp [hmonitor], ?_, fun _ => hmasked⟩
    rw [hmonitor]
    exact hword

theorem StateInv.step
    (hs : StateInv s) (h : s.step cpu a = some t) : StateInv t := by
  have hstate := hs.state
  refine System.step_cases (P := fun _ t => StateInv t) h
    (fun c _ => hs.sameExecutor (s.beginCall_sameExecutor cpu c))
    (fun cntfrq pc hpc => hs.startupStep hpc)
    (fun cntfrq _ => hs.sameExecutor (s.ensureStep_sameExecutor cntfrq))
    (fun load pc _ => hs.sameExecutor (s.loadStep_sameExecutor load pc))
    (fun args pc _ => hs.sameExecutor (s.startStep_sameExecutor args pc))
    (fun pc _ => hs.sameExecutor (s.pollStep_sameExecutor pc))
    (fun pc _ => hs.terminateStep pc)
    (fun hpc => hs.sameExecutor (s.awaitStep_sameExecutor hpc))
    (fun e _ => hs.sameExecutor (s.finish_sameExecutor _))
    (fun _ => hs.sameExecutor (s.finish_sameExecutor _))
    (fun _ => hs.sameExecutor (s.finish_sameExecutor _))
    (fun pc hpc => hs.fiqStep hpc)
    ?boot (fun pc hpc => hs.setupStep hpc) ?publishReady
    (fun pc hpc => hs.loopStep hpc) (fun pc hpc => hs.noopStep hpc)
    (fun pc hpc => hs.commandStep hpc) (fun pc hpc => hs.acceptedStep hpc)
    ?rejected ?enterDummy ?fiq (fun c hpc => hs.smcStep c hpc) ?abort
  case boot =>
    intro hpc
    rw [hpc] at hstate
    exact hs.sameManager s.bootStep_sameManager (by simp [hpc])
      ⟨nofun, hstate, nofun⟩
  case publishReady =>
    intro hpc
    exact hs.sameManager s.publishReadyStep_sameManager (by simp [hpc])
      ⟨nofun, rfl, nofun⟩
  case rejected =>
    intro hpc
    exact hs.sameManager s.rejectedStep_mainFrame.toSameManager (by simp [hpc])
      ⟨nofun, rfl, nofun⟩
  case enterDummy =>
    intro hpc
    rw [hpc] at hstate
    exact hs.sameManager s.enterDummyStep_mainFrame.toSameManager (by simp [hpc])
      ⟨nofun, hstate, nofun⟩
  case fiq =>
    intro hreset _ hunmasked
    have hcrashed : s.monitor ≠ .crashed := by
      intro hpc
      exact Bool.false_ne_true (hunmasked.symm.trans (hs.masked hpc))
    exact hs.sameManager s.takeFiq_sameManager hreset
      ⟨nofun, hstate.restart hreset hcrashed, nofun⟩
  case abort =>
    intro regs fpregs faultAddress call pc hpc
    exact hs.sameManager (s.abortStep_sameManager regs fpregs faultAddress)
      (by simp [hpc]) ⟨nofun, rfl, fun _ => Interrupts.fiqMasked_maskAll _⟩

theorem stateInv_of_reachable {allowed : System → Action → Prop}
    (h : Reachable (System.step cpu) System.Initial allowed s) :
    StateInv s :=
  h.invariant (fun _ hs => .initial hs) fun _ _ _ _ hs _ ht => hs.step ht

end Invariant

end Bmboot
