import Bmboot.System.StateWord

/-!
# The executor life cycle

Four writers set the state word, and none of them looks at it.  That it still
follows the life cycle of an executor comes from which of them can run in which
state.  Only the monitor calls by which a payload reports on itself can be made
in a state they do not fit: after the payload has reported a crash.
-/

namespace Bmboot

open StepSystem

/-! ## The life cycle -/

/-- The states that may follow a state, apart from a crash of the monitor and a
restart. -/
def DomainState.successors : DomainState → List DomainState
  | .monitorReady => [.startingPayload]
  | .startingPayload => [.runningPayload, .crashedPayload, .monitorReady]
  | .runningPayload => [.crashedPayload]
  | _ => []

def System.stateWord (s : System) : BitVec 32 := s.ipc.executorToManager.state

/-- A change of the state word that belongs to the life cycle. -/
inductive StateChange (s t : System) : Prop
  | unchanged (h : t.stateWord = s.stateWord)
  | successor (st st' : DomainState) (hs : s.stateWord = st.code)
      (ht : t.stateWord = st'.code) (h : st' ∈ st.successors)
  | crashedMonitor (h : t.stateWord = DomainState.crashedMonitor.code)
  | restart (hpc : s.monitor = .publishReady)
      (hs : s.stateWord ≠ DomainState.crashedMonitor.code)
      (h : t.stateWord = DomainState.monitorReady.code)

/-- What the manager can read about a fault is the same. -/
structure SameFault (inbox inbox' : ExecutorToManager) : Prop where
  faultPc : inbox'.faultPc = inbox.faultPc
  faultDesc : inbox'.faultDesc = inbox.faultDesc

/-- A step of the life cycle; the fault of a crashed payload stays with its
state. -/
structure LifeCycleStep (s t : System) : Prop where
  state : StateChange s t
  fault : s.stateWord = DomainState.crashedPayload.code →
    t.stateWord = DomainState.crashedPayload.code →
      SameFault s.ipc.executorToManager t.ipc.executorToManager

/-- The step follows the life cycle.  Before the core is released there is
none, and startup prepares the block. -/
def FollowsLifeCycle (cpu : DomainIndex) (s : System) (a : Action) : Prop :=
  ∀ t, s.step cpu a = some t → s.monitor ≠ .inReset → LifeCycleStep s t

/-- The address that `SMC_NOTIFY_PAYLOAD_CRASHED` passes. -/
def SmcCall.faultAddress (c : SmcCall) : BitVec 64 := c.regs.regs 2

/-- The description that `SMC_NOTIFY_PAYLOAD_CRASHED` passes, as much of it as
is kept. -/
def SmcCall.faultDesc (c : SmcCall) : List UInt8 :=
  strncpy 32 fun i => c.mem (c.regs.regs 1 + BitVec.ofNat 64 i)

/-- The payload does not go on reporting after it has reported a crash, unless
it repeats the report. -/
def NoRevival (s : System) : Action → Prop
  | .smc c =>
      s.stateWord = DomainState.crashedPayload.code →
        c.function ≠ smcNotifyPayloadStarted ∧
          (c.function = smcNotifyPayloadCrashed →
            c.faultAddress = s.ipc.executorToManager.faultPc ∧
              c.faultDesc = s.ipc.executorToManager.faultDesc)
  | _ => True

section LifeCycle

variable {cpu : DomainIndex} {s t : System} {a : Action}

/-! ## Monitor calls -/

/-- State and fault are the same. -/
structure SameReport (inbox inbox' : ExecutorToManager) : Prop
    extends SameFault inbox inbox' where
  state : inbox'.state = inbox.state

theorem SameReport.refl (inbox : ExecutorToManager) : SameReport inbox inbox :=
  ⟨⟨rfl, rfl⟩, rfl⟩

theorem DomainState.code_injective {st st' : DomainState}
    (h : st.code = st'.code) : st = st' := by
  have hof := congrArg DomainState.ofRaw h
  rwa [DomainState.ofRaw_code, DomainState.ofRaw_code] at hof

theorem writeToStdout_sameFault {depth : ℕ} {ipc ipc' : IpcBlock}
    {data : List UInt8} {count : BitVec 32}
    (h : writeToStdout depth ipc data = some (ipc', count)) :
    SameFault ipc.executorToManager ipc'.executorToManager := by
  refine writeToStdout_relates
    (R := fun ipc ipc' =>
      SameFault ipc.executorToManager ipc'.executorToManager)
    (fun _ => ⟨rfl, rfl⟩) ?_ ?_ ?_ h
  · intro a b c hab hbc
    exact ⟨hbc.faultPc.trans hab.faultPc, hbc.faultDesc.trans hab.faultDesc⟩
  · exact fun _ _ _ _ => ⟨rfl, rfl⟩
  · exact fun _ => ⟨rfl, rfl⟩

theorem smcStep_started
    (cpu : DomainIndex) (s : System) {c : SmcCall}
    (hc : c.function = smcNotifyPayloadStarted) :
    (s.smcStep cpu c).stateWord = DomainState.runningPayload.code := by
  have hx0 : c.regs.regs 0 = smcNotifyPayloadStarted := hc
  simp only [System.smcStep, handleSmc, hx0]
  rfl

/-- What is reported of a crash is what the call passes. -/
theorem smcStep_crashed
    (cpu : DomainIndex) (s : System) {c : SmcCall}
    (hc : c.function = smcNotifyPayloadCrashed) :
    (s.smcStep cpu c).stateWord = DomainState.crashedPayload.code ∧
      (s.smcStep cpu c).ipc.executorToManager.faultPc = c.faultAddress ∧
        (s.smcStep cpu c).ipc.executorToManager.faultDesc = c.faultDesc := by
  have hx0 : c.regs.regs 0 = smcNotifyPayloadCrashed := hc
  simp only [System.smcStep, handleSmc, hx0]
  exact ⟨rfl, rfl, rfl⟩

/-- A call by which the payload says nothing about itself leaves state and fault
alone, or crashes the monitor. -/
theorem handleSmc_other
    (core : Core) {c : SmcCall} (hstarted : c.function ≠ smcNotifyPayloadStarted)
    (hcrashed : c.function ≠ smcNotifyPayloadCrashed) :
    SameReport core.ipc.executorToManager
        (handleSmc cpu c.mem core c.regs).1.ipc.executorToManager ∨
      (handleSmc cpu c.mem core c.regs).1.ipc.executorToManager.state =
        DomainState.crashedMonitor.code := by
  have hx0 : c.regs.regs 0 ≠ smcNotifyPayloadStarted := hstarted
  have hx0' : c.regs.regs 0 ≠ smcNotifyPayloadCrashed := hcrashed
  simp only [handleSmc, hx0, hx0', if_false]
  split_ifs
  · exact .inl (.refl _)
  · obtain ⟨⟨ipc, count⟩, hwrite⟩ := Option.isSome_iff_exists.mp
      (writeToStdout_two_isSome core.ipc
        (readBytes c.mem (c.regs.regs 1) (c.regs.regs 2).toNat))
    rw [hwrite]
    exact .inl ⟨writeToStdout_sameFault hwrite,
      (writeToStdout_sameButStdout hwrite).state⟩
  · exact .inl (.refl _)
  · exact .inl (.refl _)
  · exact .inl (.refl _)
  · exact .inr rfl

/-! ## The steps of the life cycle -/

/-- A payload that has crashed stays so while it is on the core, unless the
monitor crashes. -/
theorem StateChange.of_crashedPayload
    (h : StateChange s t) (hpc : s.monitor ≠ .publishReady)
    (hs : s.stateWord = DomainState.crashedPayload.code) :
    t.stateWord = DomainState.crashedPayload.code ∨
      t.stateWord = DomainState.crashedMonitor.code := by
  cases h with
  | unchanged h => exact .inl (h.trans hs)
  | successor st st' hst hst' h =>
      have hcrashed : st = .crashedPayload :=
        DomainState.code_injective (hst.symm.trans hs)
      rw [hcrashed] at h
      cases h
  | crashedMonitor h => exact .inr h
  | restart hready => exact absurd hready hpc

theorem LifeCycleStep.of_sameReport
    (h : SameReport s.ipc.executorToManager t.ipc.executorToManager) :
    LifeCycleStep s t where
  state := .unchanged h.state
  fault := fun _ _ => h.toSameFault

theorem LifeCycleStep.of_ne_crashedPayload
    (hstate : StateChange s t)
    (h : s.stateWord ≠ DomainState.crashedPayload.code) : LifeCycleStep s t where
  state := hstate
  fault := fun hs => absurd hs h

theorem LifeCycleStep.of_crashedMonitor
    (h : t.stateWord = DomainState.crashedMonitor.code) :
    LifeCycleStep s t where
  state := .crashedMonitor h
  fault := by
    intro _ ht
    exact absurd (h.symm.trans ht) (by decide)

/-- The notification of a start follows the life cycle exactly when the payload
has not crashed. -/
theorem lifeCycle_started_iff
    (hpayload : PayloadState s.stateWord s.monitorLog.reports)
    (hpc : s.monitor = .el1 .payload)
    (ht : t.stateWord = DomainState.runningPayload.code) :
    LifeCycleStep s t ↔ s.stateWord ≠ DomainState.crashedPayload.code := by
  constructor
  · intro hstep hcrash
    rcases hstep.state.of_crashedPayload (by simp [hpc]) hcrash with h | h
    · exact absurd (ht.symm.trans h) (by decide)
    · exact absurd (ht.symm.trans h) (by decide)
  · intro hcrash
    apply LifeCycleStep.of_ne_crashedPayload _ hcrash
    rcases hpayload with ⟨hs, -⟩ | ⟨hs, -⟩ | ⟨hs, -⟩
    · exact .successor .startingPayload .runningPayload hs ht (by decide)
    · exact .unchanged (ht.trans hs.symm)
    · exact absurd hs hcrash

/-- The report of a crash follows the life cycle exactly when it is the first
or repeats the one before. -/
theorem lifeCycle_crashed_iff
    (hpayload : PayloadState s.stateWord s.monitorLog.reports)
    (ht : t.stateWord = DomainState.crashedPayload.code) :
    LifeCycleStep s t ↔ (s.stateWord = DomainState.crashedPayload.code →
      SameFault s.ipc.executorToManager t.ipc.executorToManager) := by
  constructor
  · intro hstep hcrash
    exact hstep.fault hcrash ht
  · intro hfault
    refine ⟨?_, fun hcrash _ => hfault hcrash⟩
    rcases hpayload with ⟨hs, -⟩ | ⟨hs, -⟩ | ⟨hs, -⟩
    · exact .successor .startingPayload .crashedPayload hs ht (by decide)
    · exact .successor .runningPayload .crashedPayload hs ht (by decide)
    · exact .unchanged (ht.trans hs.symm)

/-- A monitor call follows the life cycle exactly when it takes back no
report. -/
theorem smcStep_lifeCycle_iff
    (cpu : DomainIndex) (hs : StateInv s) (c : SmcCall)
    (hpc : s.monitor = .el1 .payload) :
    LifeCycleStep s (s.smcStep cpu c) ↔ NoRevival s (.smc c) := by
  have hpayload := hs.state
  rw [hpc] at hpayload
  by_cases hstarted : c.function = smcNotifyPayloadStarted
  · rw [lifeCycle_started_iff hpayload hpc (smcStep_started cpu s hstarted)]
    constructor
    · intro h hcrash
      exact absurd hcrash h
    · intro hrevival hcrash
      exact (hrevival hcrash).1 hstarted
  by_cases hcrashed : c.function = smcNotifyPayloadCrashed
  · obtain ⟨hword, haddress, hdesc⟩ := smcStep_crashed cpu s hcrashed
    rw [lifeCycle_crashed_iff hpayload hword]
    constructor
    · intro hfault hcrash
      refine ⟨hstarted, fun _ => ?_⟩
      exact ⟨haddress.symm.trans (hfault hcrash).faultPc,
        hdesc.symm.trans (hfault hcrash).faultDesc⟩
    · intro hrevival hcrash
      obtain ⟨haddress', hdesc'⟩ := (hrevival hcrash).2 hcrashed
      exact ⟨haddress.trans haddress', hdesc.trans hdesc'⟩
  · constructor
    · intro _ _
      exact ⟨hstarted, fun h => absurd h hcrashed⟩
    · intro _
      rcases handleSmc_other ⟨s.ipc, s.irq⟩ hstarted hcrashed with h | h
      · exact .of_sameReport h
      · exact .of_crashedMonitor h

/-! ## All steps -/

/-- What a step does to the state word, with the writer it comes from. -/
inductive System.StateEffect
    (cpu : DomainIndex) (s : System) (a : Action) (t : System) : Prop
  | none (hreport : SameReport s.ipc.executorToManager t.ipc.executorToManager)
      (hreports : t.monitorLog.reports = s.monitorLog.reports)
  /-- A payload is entered. -/
  | entered (hs : s.stateWord = DomainState.startingPayload.code)
      (hreport : SameReport s.ipc.executorToManager t.ipc.executorToManager)
  | startup (hreset : s.monitor = .inReset)
      (ht : t.stateWord = DomainState.inReset.code ∨
        t.stateWord = DomainState.invalidState.code)
  | restart (hpc : s.monitor = .publishReady)
      (hs : s.stateWord ≠ DomainState.crashedMonitor.code)
      (ht : t.stateWord = DomainState.monitorReady.code)
  | command (hs : s.stateWord = DomainState.monitorReady.code)
      (ht : t.stateWord = DomainState.startingPayload.code)
  | rejected (hs : s.stateWord = DomainState.startingPayload.code)
      (ht : t.stateWord = DomainState.monitorReady.code)
  | smc (c : SmcCall) (ha : a = .smc c) (hpc : s.monitor = .el1 .payload)
      (ht : t = s.smcStep cpu c)
  | crashedMonitor (ht : t.stateWord = DomainState.crashedMonitor.code)

theorem RestartState.ne_crashedMonitor
    {state : BitVec 32} (h : RestartState state) :
    state ≠ DomainState.crashedMonitor.code := by
  rintro rfl
  revert h
  unfold RestartState
  decide

theorem System.StateEffect.same
    (hinbox : t.ipc.executorToManager = s.ipc.executorToManager)
    (hreports : t.monitorLog.reports = s.monitorLog.reports) :
    System.StateEffect cpu s a t := by
  apply System.StateEffect.none _ hreports
  rw [hinbox]
  exact .refl _

theorem startupStep_stateEffect
    (hs : StateInv s) {cntfrq : BitVec 32} {pc : StartupPc}
    (hpc : s.manager.pc = .startup cntfrq pc) :
    System.StateEffect cpu s .manager (s.startupStep cntfrq pc) := by
  have hok := hs.startup cntfrq pc hpc
  cases pc with
  | guard =>
      simp only [System.startupStep]
      split_ifs <;> exact .same rfl rfl
  | clearIpc => exact .startup hok (.inl rfl)
  | writeState => exact .startup hok (.inr rfl)
  | writeCntfrq => exact .same rfl rfl
  | bootCore =>
      simp only [System.startupStep]
      split <;> exact .same rfl rfl

theorem commandStep_stateEffect
    (hs : StateInv s) {pc : CommandPc} (hpc : s.monitor = .command pc) :
    System.StateEffect cpu s .monitor (s.commandStep pc) := by
  have hstate := hs.state
  rw [hpc] at hstate
  cases pc with
  | writeState => exact .command hstate rfl
  | checkEntryAddress =>
      simp only [System.commandStep]
      split_ifs <;> exact .same rfl rfl
  | validate call pc =>
      simp only [System.commandStep]
      split <;> exact .same rfl rfl
  | _ => exact .none ⟨⟨rfl, rfl⟩, rfl⟩ rfl

theorem System.step_stateEffect
    (hs : StateInv s) (h : s.step cpu a = some t) :
    System.StateEffect cpu s a t := by
  have hstate := hs.state
  refine System.step_cases_core (P := System.StateEffect cpu s) h
    (fun _ _ hpc => startupStep_stateEffect hs hpc) ?terminate ?manager ?fiqStep
    (fun _ => .same rfl rfl) ?setup ?publishReady ?loop ?noop
    (fun _ hpc => commandStep_stateEffect hs hpc) ?accepted ?rejected
    (fun _ => .same rfl rfl) (fun _ _ _ => .same rfl rfl)
    (fun c hpc => .smc c rfl hpc rfl)
    (fun _ _ _ _ _ _ => .crashedMonitor rfl)
  case terminate =>
    intro pc _
    cases pc with
    | guard =>
        simp only [System.terminateStep]
        split_ifs <;> exact .same rfl rfl
    | writeCmd => exact .same rfl rfl
    | sendIpi => exact .same rfl rfl
  case manager =>
    intro a t _ hsame
    exact .same hsame.inbox (by rw [hsame.monitorLog])
  case fiqStep =>
    intro pc _
    simp only [System.fiqStep]
    split
    · exact .same rfl rfl
    · exact .same rfl rfl
    · exact .crashedMonitor rfl
  case setup =>
    intro pc _
    simp only [System.setupStep]
    split <;> exact .same rfl rfl
  case publishReady =>
    intro hpc
    rw [hpc] at hstate
    exact .restart hpc (RestartState.ne_crashedMonitor hstate) rfl
  case loop =>
    intro pc _
    cases pc <;> simp only [System.loopStep] <;> (try split_ifs) <;>
      exact .same rfl rfl
  case noop =>
    intro pc _
    cases pc with
    | readAck => exact .same rfl rfl
    | writeAck ack => exact .none ⟨⟨rfl, rfl⟩, rfl⟩ rfl
  case accepted =>
    intro pc hpc
    rw [hpc] at hstate
    cases pc with
    | readEntryAddress => exact .same rfl rfl
    | enterEl1 address => exact .entered hstate (.refl _)
  case rejected =>
    intro hpc
    rw [hpc] at hstate
    exact .rejected hstate rfl

/-- Every step but a monitor call follows the life cycle. -/
theorem step_lifeCycle
    (hs : StateInv s) (h : s.step cpu a = some t) (hreset : s.monitor ≠ .inReset)
    (ha : ∀ c, a ≠ .smc c) : LifeCycleStep s t := by
  have hdecide : ∀ {st : DomainState}, s.stateWord = st.code →
      st ≠ .crashedPayload →
        s.stateWord ≠ DomainState.crashedPayload.code := by
    intro st hst hne hcrashed
    exact hne (DomainState.code_injective (hst.symm.trans hcrashed))
  cases System.step_stateEffect hs h with
  | none hreport => exact .of_sameReport hreport
  | entered _ hreport => exact .of_sameReport hreport
  | startup hin => exact absurd hin hreset
  | restart hpc hs ht =>
      refine ⟨.restart hpc hs ht, ?_⟩
      intro _ hcrashed
      exact absurd (ht.symm.trans hcrashed) (by decide)
  | command hs ht =>
      apply LifeCycleStep.of_ne_crashedPayload _ (hdecide hs nofun)
      exact .successor .monitorReady .startingPayload hs ht (by decide)
  | rejected hs ht =>
      apply LifeCycleStep.of_ne_crashedPayload _ (hdecide hs nofun)
      exact .successor .startingPayload .monitorReady hs ht (by decide)
  | smc c hc => exact absurd hc (ha c)
  | crashedMonitor ht => exact .of_crashedMonitor ht

/-- One step follows the life cycle exactly when it takes back no report. -/
theorem step_followsLifeCycle_iff
    (hs : StateInv s) (h : s.step cpu a = some t) :
    FollowsLifeCycle cpu s a ↔ NoRevival s a := by
  have hexact : FollowsLifeCycle cpu s a ↔
      (s.monitor ≠ .inReset → LifeCycleStep s t) := by
    constructor
    · intro hfollows
      exact hfollows t h
    · intro hstep u hu
      cases h.symm.trans hu
      exact hstep
  rw [hexact]
  by_cases hsmc : ∃ c, a = .smc c
  · obtain ⟨c, rfl⟩ := hsmc
    have hcall : s.smc cpu c = some t := h
    unfold System.smc at hcall
    split at hcall
    next hpc =>
      cases hcall
      rw [← smcStep_lifeCycle_iff cpu hs c hpc]
      simp [hpc]
    · cases hcall
  · have hnot : ∀ c, a ≠ .smc c := fun c hc => hsmc ⟨c, hc⟩
    constructor
    · intro _
      cases a with
      | smc c => exact absurd rfl (hnot c)
      | _ => trivial
    · intro _ hreset
      exact step_lifeCycle hs h hreset hnot

/-! ## Main result -/

/-- A run follows the life cycle exactly when no payload that has reported a
crash goes on to report that it has started, or a different crash. -/
theorem followsLifeCycle_iff_noRevival
    (cpu : DomainIndex) (s : {s : System // s.Initial})
    (schedule : List Action) :
    EachStep (System.step cpu) s.1 schedule (FollowsLifeCycle cpu) ↔
      EachStep (System.step cpu) s.1 schedule NoRevival := by
  have hinv : ∀ s a t, StateInv s → System.step cpu s a = some t →
      StateInv t := fun _ _ _ hs ht => hs.step ht
  apply eachStep_congr hinv _ (.initial s.2)
  intro s a t hs ht
  exact step_followsLifeCycle_iff hs ht

/-- A payload is entered, confirms its start, and reports a crash. -/
def crashSchedule : List Action :=
  startupSchedule ++ loadElfSchedule validElf 7 ++ validationSchedule ++
    entrySchedule ++ [.smc (smcCall smcNotifyPayloadStarted 0 0),
      .smc (smcCall smcNotifyPayloadCrashed 0 0)]

/-- The crashed payload confirms its start once more, and is reported as
running. -/
theorem not_followsLifeCycle_crashed :
    ¬EachStep (System.step .cpu1) System.powerOn
      (crashSchedule ++ [.smc (smcCall smcNotifyPayloadStarted 0 0)])
      (FollowsLifeCycle .cpu1) := by
  intro heach
  obtain ⟨t, hrun, -, hpc, hcrashed⟩ :=
    exists_reachable_of_run (System.step .cpu1) crashSchedule
      (fun t => t.monitor = .el1 .payload ∧
        t.stateWord = DomainState.crashedPayload.code)
      System.powerOn_initial (by decide +kernel)
  have hstep : t.step .cpu1 (.smc (smcCall smcNotifyPayloadStarted 0 0)) =
      some (t.smcStep .cpu1 (smcCall smcNotifyPayloadStarted 0 0)) := by
    simp only [System.step, System.smc, hpc]
  have hlife := heach _ _ _ _ (List.prefix_refl _) hrun hstep _ hstep
    (by simp [hpc])
  have hword : (t.smcStep .cpu1
      (smcCall smcNotifyPayloadStarted 0 0)).stateWord =
        DomainState.runningPayload.code := smcStep_started .cpu1 t rfl
  rcases hlife.state.of_crashedPayload (by simp [hpc]) hcrashed with h | h
  · exact absurd (hword.symm.trans h) (by decide)
  · exact absurd (hword.symm.trans h) (by decide)

end LifeCycle

end Bmboot
