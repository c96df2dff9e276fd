import Bmboot.System.Calls
import Bmboot.System.Calm

/-!
# What runs is what was validated

The loaders check the published state before they write anything, and
`startPayloadAt` checks the sequence numbers.  The checks keep the manager from
writing under the monitor's hands, unless they see `monitor_ready` while an
earlier start command is still pending.
-/

namespace Bmboot

open StepSystem

/-- A loader that is going to write payload memory, or `startPayloadAt`, does
not find the domain ready while a start command is pending. -/
def ManagerPc.NotStale (s : System) : ManagerPc → Prop
  | .load l .checkState =>
      s.getState = .monitorReady → l.refusal = none → l.stores ≠ [] →
        ¬s.StartPending
  | .start _ .checkState => s.getState = .monitorReady → ¬s.StartPending
  | _ => True

def NoStaleStart (s : System) : Action → Prop
  | .manager => s.manager.pc.NotStale s
  | _ => True

instance (s : System) : ∀ pc : ManagerPc, Decidable (pc.NotStale s)
  | .load l .checkState =>
      inferInstanceAs (Decidable (s.getState = .monitorReady →
        l.refusal = none → l.stores ≠ [] → ¬s.StartPending))
  | .start _ .checkState =>
      inferInstanceAs
        (Decidable (s.getState = .monitorReady → ¬s.StartPending))
  | .load _ .map | .load _ (.store _) => isTrue trivial
  | .start _ .readAck | .start _ (.readSeq _) | .start _ .readWrpos
  | .start _ (.writeRdpos _) | .start _ .writeEntryAddress
  | .start _ .writeSize | .start _ .writeCrc | .start _ .writeArgument
  | .start _ .writeCmd | .start _ .incrementSeq | .start _ (.writeSeq _) =>
      isTrue trivial
  | .idle | .startup _ _ | .ensure _ | .poll _ | .terminate _ | .await =>
      isTrue trivial

instance (s : System) : ∀ a : Action, Decidable (NoStaleStart s a)
  | .manager => inferInstanceAs (Decidable (s.manager.pc.NotStale s))
  | .call _ | .fail _ | .timeout | .monitor | .fiq | .smc _ | .abort _ _ _ =>
      isTrue trivial

/-! ## What each side knows -/

/-- Between its checks and the issue of its command, the manager relies on a
calm monitor. -/
def ManagerPc.CalmOk (s : System) : ManagerPc → Prop
  | .load l .map => l.refusal = none → l.stores ≠ [] → s.Calm
  | .load _ (.store (_ :: _)) => s.Calm
  | .start _ .checkState => True
  | .start _ _ => s.Calm
  | _ => True

/-- The image that validation began with is the one the block names, and payload
memory has not been written since. -/
structure System.ImageKept (s : System) : Prop where
  image : s.monitorLog.validatedImage =
    s.ipc.managerToExecutor.payloadEntryAddress
  stores : s.monitorLog.storesAtValidation = s.managerLog.memoryStores

def CommandPc.ImageOk (s : System) : CommandPc → Prop
  | .readSize image | .readCrc image _ =>
      image = s.monitorLog.validatedImage ∧ s.ImageKept
  | .validate call _ =>
      call.image = s.monitorLog.validatedImage ∧ s.ImageKept
  | .writeResp _ | .readAck _ | .writeAck _ _ => s.ImageKept
  | _ => True

def MonitorPc.ImageOk (s : System) : MonitorPc → Prop
  | .command pc => pc.ImageOk s
  | .accepted .readEntryAddress => s.mailbox.Settled ∧ s.ImageKept
  | .accepted (.enterEl1 address) =>
      s.mailbox.Settled ∧ address = s.monitorLog.validatedImage ∧ s.ImageKept
  | _ => True

/-- The payload last entered is that of the latest command. -/
def System.EntersLatest (s : System) : Prop :=
  ∀ args, s.managerLog.issued.getLast? = some args →
    s.monitorLog.entered.getLast? =
      some ⟨s.managerLog.issued.length - 1, args.entryAddress,
        args.payloadArgument⟩

/-- A payload runs, or has left a state in the state word. -/
def System.ShowsPayload (s : System) (st : DomainState) : Prop :=
  s.monitor = .el1 .payload ∨ s.ipc.executorToManager.state = st.code

structure LoadInv (s : System) : Prop where
  manager : s.manager.pc.CalmOk s
  monitor : s.monitor.ImageOk s
  payload : ∀ pc, s.manager.pc = .poll pc → s.ShowsPayload .runningPayload →
    s.EntersLatest

section Invariant

variable {cpu : DomainIndex} {s t : System} {a : Action}

theorem MonitorPc.AtRest.imageOk {pc : MonitorPc} (h : pc.AtRest) :
    pc.ImageOk s := by
  cases pc with
  | command | accepted => exact h.elim
  | _ => trivial

theorem MonitorPc.AtRest.ne_el1 {pc : MonitorPc} (h : pc.AtRest)
    (code : El1Code) : pc ≠ .el1 code := by
  rintro rfl
  exact h

/-- The manager writes neither payload memory nor the entry address. -/
theorem MonitorPc.ImageOk.congr {pc : MonitorPc}
    (h : pc.ImageOk s)
    (hentry : t.ipc.managerToExecutor.payloadEntryAddress =
      s.ipc.managerToExecutor.payloadEntryAddress)
    (hstores : t.managerLog.memoryStores = s.managerLog.memoryStores)
    (hmailbox : t.mailbox = s.mailbox)
    (hlog : t.monitorLog = s.monitorLog) : pc.ImageOk t := by
  have hkept : s.ImageKept → t.ImageKept := by
    rintro ⟨himage, hold⟩
    exact ⟨by rw [hlog, hentry, himage], by rw [hlog, hstores, hold]⟩
  cases pc with
  | command pc =>
      cases pc with
      | readSize image | readCrc image =>
          exact ⟨by rw [hlog]; exact h.1, hkept h.2⟩
      | validate call pc => exact ⟨by rw [hlog]; exact h.1, hkept h.2⟩
      | writeResp | readAck | writeAck => exact hkept h
      | _ => trivial
  | accepted pc =>
      cases pc with
      | readEntryAddress => exact ⟨by rw [hmailbox]; exact h.1, hkept h.2⟩
      | enterEl1 address =>
          exact ⟨by rw [hmailbox]; exact h.1, by rw [hlog]; exact h.2.1,
            hkept h.2.2⟩
  | _ => trivial

theorem LoadInv.initial (h : s.Initial) : LoadInv s where
  manager := by simp [h.pc, ManagerPc.CalmOk]
  monitor := by simp [h.monitor, MonitorPc.ImageOk]
  payload := by simp [h.pc]

/-! ## Steps of the manager -/

/-- A step of the manager that does not write what the monitor reads. -/
theorem LoadInv.quiet
    (hs : LoadInv s) (hsame : System.SameExecutor s t)
    (hentry : t.ipc.managerToExecutor.payloadEntryAddress =
      s.ipc.managerToExecutor.payloadEntryAddress)
    (hstores : t.managerLog.memoryStores = s.managerLog.memoryStores)
    (hissued : t.managerLog.issued = s.managerLog.issued)
    (hmanager : t.manager.pc.CalmOk t)
    (hpoll : ∀ pc, t.manager.pc ≠ .poll pc) : LoadInv t where
  manager := hmanager
  monitor := by
    rw [hsame.monitor]
    refine hs.monitor.congr hentry hstores ?_ hsame.monitorLog
    simp only [System.mailbox, hissued, hsame.monitorLog]
  payload := fun pc hpc => absurd hpc (hpoll pc)

/-- A step of the manager while the monitor is calm. -/
theorem LoadInv.ofCalm
    (hcalm : s.Calm) (hsame : System.SameExecutor s t)
    (hmanager : t.manager.pc.CalmOk t) : LoadInv t where
  manager := hmanager
  monitor := by
    rw [hsame.monitor]
    exact hcalm.monitor.imageOk
  payload := by
    intro pc _ hpayload
    rcases hpayload with hmonitor | hword
    · rw [hsame.monitor] at hmonitor
      exact absurd hmonitor (hcalm.monitor.ne_el1 _)
    · rw [hsame.inbox, hcalm.state] at hword
      exact absurd hword (by decide)

theorem LoadInv.loadStep
    (hs : LoadInv s) (hstate : StateInv s) (hcommand : CommandInv s)
    (hparam : ParamInv s) {load : Load} {pc : LoadPc}
    (hpc : s.manager.pc = .load load pc) (ha : NoStaleStart s .manager) :
    LoadInv (s.loadStep load pc) := by
  have hok := hs.manager
  rw [hpc] at hok
  have hsame := s.loadStep_sameExecutor load pc
  match pc with
  | .checkState =>
      simp only [System.loadStep] at hsame ⊢
      split_ifs at hsame ⊢ with hready
      · exact hs.quiet hsame rfl rfl rfl trivial (by rintro _ ⟨⟩)
      · refine hs.quiet hsame rfl rfl rfl ?_ (by rintro _ ⟨⟩)
        intro hrefusal hstores
        have hguard := ha
        simp only [NoStaleStart, hpc, ManagerPc.NotStale] at hguard
        have hready' := not_not.mp hready
        have hcalm := calm_of_ready hstate hcommand hparam hready'
          (hguard hready' hrefusal hstores)
        exact ⟨hcalm.state, hcalm.monitor, hcalm.command⟩
  | .map =>
      simp only [System.loadStep] at hsame ⊢
      split at hsame
      · exact hs.quiet hsame rfl rfl rfl trivial (by rintro _ ⟨⟩)
      next hrefusal =>
        refine hs.quiet hsame rfl rfl rfl ?_ (by rintro _ ⟨⟩)
        cases hstores : load.stores with
        | nil =>
            simp only [System.gotoManager, ManagerPc.CalmOk]
        | cons p rest =>
            have hcalm := hok hrefusal (by simp [hstores])
            exact ⟨hcalm.state, hcalm.monitor, hcalm.command⟩
  | .store ((address, b) :: rest) =>
      have hcalm : s.Calm := hok
      refine .ofCalm hcalm hsame ?_
      cases rest with
      | nil => trivial
      | cons p rest => exact ⟨hcalm.state, hcalm.monitor, hcalm.command⟩
  | .store [] =>
      simp only [System.loadStep] at hsame ⊢
      split at hsame <;>
        exact hs.quiet hsame rfl rfl rfl trivial (by rintro _ ⟨⟩)

theorem LoadInv.startStep
    (hs : LoadInv s) (hstate : StateInv s) (hcommand : CommandInv s)
    (hparam : ParamInv s) {args : StartArgs} {pc : StartPc}
    (hpc : s.manager.pc = .start args pc) (ha : NoStaleStart s .manager) :
    LoadInv (s.startStep args pc) := by
  have hok := hs.manager
  rw [hpc] at hok
  have hsame := s.startStep_sameExecutor args pc
  cases pc with
  | checkState =>
      simp only [System.startStep] at hsame ⊢
      split_ifs at hsame ⊢ with hready
      · exact hs.quiet hsame rfl rfl rfl trivial (by rintro _ ⟨⟩)
      · have hguard := ha
        simp only [NoStaleStart, hpc, ManagerPc.NotStale] at hguard
        have hready' := not_not.mp hready
        have hcalm := calm_of_ready hstate hcommand hparam hready'
          (hguard hready')
        exact .ofCalm hcalm hsame
          ⟨hcalm.state, hcalm.monitor, hcalm.command⟩
  | readSeq ack =>
      have hcalm : s.Calm := hok
      simp only [System.startStep] at hsame ⊢
      split_ifs at hsame ⊢
      · exact .ofCalm hcalm hsame trivial
      · exact .ofCalm hcalm hsame
          ⟨hcalm.state, hcalm.monitor, hcalm.command⟩
  | writeCmd =>
      have hcalm : s.Calm := hok
      have hpoint := hcommand.manager
      rw [hpc] at hpoint
      exact .ofCalm hcalm hsame ⟨hcalm.state, hcalm.monitor, .inl hpoint.2⟩
  | writeSeq seq =>
      have hcalm : s.Calm := hok
      exact .ofCalm hcalm hsame trivial
  | _ =>
      have hcalm : s.Calm := hok
      exact .ofCalm hcalm hsame ⟨hcalm.state, hcalm.monitor, hcalm.command⟩

theorem LoadInv.pollStep
    (hs : LoadInv s) {pc : PollPc} (hpc : s.manager.pc = .poll pc) :
    LoadInv (s.pollStep pc) := by
  have hpayload := hs.payload pc hpc
  have hsame := s.pollStep_sameExecutor pc
  have hgoOn : ∀ pc', LoadInv (s.gotoManager (.poll pc')) := fun pc' =>
    ⟨trivial, hs.monitor.congr rfl rfl rfl rfl, fun _ _ => hpayload⟩
  have hfinish : ∀ r, LoadInv (s.finish r) := fun r =>
    hs.quiet (s.finish_sameExecutor r) rfl rfl rfl trivial nofun
  cases pc with
  | readAck => exact hgoOn _
  | readSeq ack =>
      simp only [System.pollStep]
      split_ifs <;> exact hgoOn _
  | readResp =>
      simp only [System.pollStep]
      split_ifs
      · exact hgoOn _
      all_goals exact hfinish _
  | readState =>
      simp only [System.pollStep]
      split_ifs
      · exact hfinish _
      · exact hfinish _
      · exact hgoOn _

theorem LoadInv.startupStep
    (hs : LoadInv s) (hstate : StateInv s) {cntfrq : BitVec 32}
    {pc : StartupPc} (hpc : s.manager.pc = .startup cntfrq pc) :
    LoadInv (s.startupStep cntfrq pc) := by
  have hreset := hstate.startup cntfrq pc hpc
  cases pc with
  | guard =>
      simp only [System.startupStep]
      split_ifs <;>
        exact ⟨trivial, hs.monitor.congr rfl rfl rfl rfl, by rintro _ ⟨⟩⟩
  | clearIpc =>
      have hin : s.monitor = .inReset := hreset
      refine ⟨trivial, ?_, by rintro _ ⟨⟩⟩
      simp [System.startupStep, System.gotoManager, hin, MonitorPc.ImageOk]
  | writeState | writeCntfrq =>
      exact ⟨trivial, hs.monitor.congr rfl rfl rfl rfl, by rintro _ ⟨⟩⟩
  | bootCore =>
      simp only [System.startupStep]
      split
      · exact ⟨trivial, trivial, by rintro _ ⟨⟩⟩
      · exact ⟨trivial, hs.monitor.congr rfl rfl rfl rfl, by rintro _ ⟨⟩⟩

theorem LoadInv.terminateStep (hs : LoadInv s) (pc : TerminatePc) :
    LoadInv (s.terminateStep pc) := by
  cases pc with
  | guard =>
      simp only [System.terminateStep]
      split_ifs <;>
        exact ⟨trivial, hs.monitor.congr rfl rfl rfl rfl, by rintro _ ⟨⟩⟩
  | writeCmd =>
      exact ⟨trivial, hs.monitor.congr rfl rfl rfl rfl, by rintro _ ⟨⟩⟩
  | sendIpi =>
      exact ⟨trivial, hs.monitor.congr rfl rfl rfl rfl, by rintro _ ⟨⟩⟩

/-! ## Steps of the core -/

theorem ManagerPc.CalmOk.core {pc : ManagerPc}
    (h : pc.CalmOk s) (hcalm : s.Calm → t.Calm) : pc.CalmOk t := by
  cases pc with
  | load l pc =>
      match pc with
      | .checkState => trivial
      | .map => exact fun hrefusal hstores => hcalm (h hrefusal hstores)
      | .store (_ :: _) => exact hcalm h
      | .store [] => trivial
  | start args pc =>
      cases pc with
      | checkState => trivial
      | _ => exact hcalm h
  | _ => trivial

/-- The monitor keeps the image it validates until it enters it. -/
theorem imageOk_core
    (hs : s.monitor.ImageOk s) (hcommand : CommandInv s)
    (h : s.step cpu a = some t) (ha : a.OfCore) : t.monitor.ImageOk t := by
  refine System.step_cases_ofCore (P := fun _ t => t.monitor.ImageOk t) h ha
    ?fiqStep (fun _ => trivial) ?setup (fun _ => trivial) ?loop ?noop ?command
    ?accepted (fun _ => trivial) (fun _ => trivial) (fun _ _ _ => trivial) ?smc
    (fun _ _ _ _ _ _ => trivial)
  case fiqStep =>
    intro pc _
    simp only [System.fiqStep]
    split <;> trivial
  case setup =>
    intro pc _
    simp only [System.setupStep]
    split <;> trivial
  case loop =>
    intro pc _
    cases pc <;> simp only [System.loopStep] <;> (try split_ifs) <;> trivial
  case noop =>
    intro pc _
    cases pc <;> trivial
  case command =>
    intro pc hpc
    rw [hpc] at hs
    cases pc with
    | checkEntryAddress =>
        simp only [System.commandStep]
        split_ifs <;> trivial
    | readEntryAddress => exact ⟨rfl, rfl, rfl⟩
    | readSize image => exact ⟨hs.1, hs.2.1, hs.2.2⟩
    | readCrc image imageSize => exact ⟨hs.1, hs.2.1, hs.2.2⟩
    | validate call pc =>
        simp only [System.commandStep]
        split
        · exact ⟨hs.1, hs.2.1, hs.2.2⟩
        · exact ⟨hs.2.1, hs.2.2⟩
    | writeResp resp => exact ⟨hs.1, hs.2⟩
    | readAck resp => exact ⟨hs.1, hs.2⟩
    | writeAck resp ack =>
        have hpending := hcommand.monitor
        rw [hpc] at hpending
        simp only [System.commandStep]
        split_ifs
        · exact ⟨Mailbox.settled_answer (Outcome.verdict resp) hpending.1,
            hs.1, hs.2⟩
        · trivial
    | _ => trivial
  case accepted =>
    intro pc hpc
    rw [hpc] at hs
    cases pc with
    | readEntryAddress => exact ⟨hs.1, hs.2.1.symm, hs.2.1, hs.2.2⟩
    | enterEl1 address => trivial
  case smc =>
    intro c _
    rcases System.smcStep_monitor cpu s c with hmonitor | hmonitor <;>
      rw [hmonitor] <;> trivial

/-- A payload shows only because it did before, or has just been entered. -/
theorem showsPayload_core {st : DomainState}
    (hst : st = .runningPayload ∨ st = .crashedPayload)
    (h : s.step cpu a = some t) (ha : a.OfCore) (ht : t.ShowsPayload st) :
    (s.ShowsPayload st ∧ t.monitorLog.entered = s.monitorLog.entered) ∨
      ∃ address, s.monitor = .accepted (.enterEl1 address) ∧
        t.monitorLog.entered = s.monitorLog.entered ++
          [⟨s.monitorLog.outcomes.length - 1, address,
            s.ipc.managerToExecutor.payloadArgument⟩] := by
  have hold : ∀ {t : System}, t.monitor ≠ .el1 .payload →
      t.ipc.executorToManager.state = s.ipc.executorToManager.state →
        t.monitorLog.entered = s.monitorLog.entered → t.ShowsPayload st →
          s.ShowsPayload st ∧ t.monitorLog.entered = s.monitorLog.entered := by
    intro t hmonitor hword hentered ht
    rcases ht with h | h
    · exact absurd h hmonitor
    · exact ⟨.inr (hword.symm.trans h), hentered⟩
  have hnone : ∀ {t : System} (st' : DomainState), t.monitor ≠ .el1 .payload →
      t.ipc.executorToManager.state = st'.code →
        st'.code ≠ DomainState.runningPayload.code ∧
          st'.code ≠ DomainState.crashedPayload.code → ¬t.ShowsPayload st := by
    intro t st' hmonitor hword hne ht
    rcases ht with h | h
    · exact hmonitor h
    · rcases hst with rfl | rfl
      · exact hne.1 (hword.symm.trans h)
      · exact hne.2 (hword.symm.trans h)
  revert ht
  refine System.step_cases_ofCore
    (P := fun _ t => t.ShowsPayload st →
      (s.ShowsPayload st ∧ t.monitorLog.entered = s.monitorLog.entered) ∨
        ∃ address, s.monitor = .accepted (.enterEl1 address) ∧
          t.monitorLog.entered = s.monitorLog.entered ++
            [⟨s.monitorLog.outcomes.length - 1, address,
              s.ipc.managerToExecutor.payloadArgument⟩]) h ha
    ?fiqStep (fun _ ht => .inl (hold (by rintro ⟨⟩) rfl rfl ht)) ?setup
    (fun _ ht => absurd ht (hnone .monitorReady (by rintro ⟨⟩) rfl (by decide)))
    ?loop
    ?noop ?command ?accepted
    (fun _ ht => absurd ht (hnone .monitorReady (by rintro ⟨⟩) rfl (by decide)))
    (fun _ ht => .inl (hold (by rintro ⟨⟩) rfl rfl ht))
    (fun _ _ _ ht => .inl (hold (by rintro ⟨⟩) rfl rfl ht)) ?smc
    (fun _ _ _ _ _ _ ht =>
      absurd ht (hnone .crashedMonitor (by rintro ⟨⟩) rfl (by decide)))
  case fiqStep =>
    intro pc _
    simp only [System.fiqStep]
    split
    · exact fun ht => .inl (hold (by rintro ⟨⟩) rfl rfl ht)
    · exact fun ht => .inl (hold (by rintro ⟨⟩) rfl rfl ht)
    · exact fun ht =>
        absurd ht (hnone .crashedMonitor (by rintro ⟨⟩) rfl (by decide))
  case setup =>
    intro pc _
    simp only [System.setupStep]
    split <;> exact fun ht => .inl (hold (by rintro ⟨⟩) rfl rfl ht)
  case loop =>
    intro pc _
    cases pc <;> simp only [System.loopStep] <;> (try split_ifs) <;>
      exact fun ht => .inl (hold (by rintro ⟨⟩) rfl rfl ht)
  case noop =>
    intro pc _
    cases pc <;> exact fun ht => .inl (hold (by rintro ⟨⟩) rfl rfl ht)
  case command =>
    intro pc _
    cases pc with
    | writeState =>
        exact fun ht =>
          absurd ht (hnone .startingPayload (by rintro ⟨⟩) rfl (by decide))
    | checkEntryAddress =>
        simp only [System.commandStep]
        split_ifs <;> exact fun ht => .inl (hold (by rintro ⟨⟩) rfl rfl ht)
    | validate call pc =>
        simp only [System.commandStep]
        split <;> exact fun ht => .inl (hold (by rintro ⟨⟩) rfl rfl ht)
    | writeAck resp ack =>
        simp only [System.commandStep]
        split_ifs <;> exact fun ht => .inl (hold (by rintro ⟨⟩) rfl rfl ht)
    | _ => exact fun ht => .inl (hold (by rintro ⟨⟩) rfl rfl ht)
  case accepted =>
    intro pc hpc
    cases pc with
    | readEntryAddress => exact fun ht => .inl (hold (by rintro ⟨⟩) rfl rfl ht)
    | enterEl1 address => exact fun _ => .inr ⟨address, hpc, rfl⟩
  case smc =>
    intro c hpc _
    have hframe := System.smcStep_frame cpu s c
    exact .inl ⟨.inl hpc, by rw [hframe.monitorLog]⟩

/-- Before and after `startPayloadAt` writes them, the block carries the latest
parameters. -/
theorem LoadInv.carriesLatest
    (hs : LoadInv s) (hparam : ParamInv s) (hcalm : ¬s.Calm) :
    s.CarriesLatest := by
  have hok := hs.manager
  have hparams := hparam.manager
  cases hpc : s.manager.pc with
  | start args pc =>
      rw [hpc] at hok hparams
      cases pc with
      | checkState => exact hparams
      | _ => exact absurd hok hcalm
  | _ => exact hparam.carriesLatest (by simp [hpc])

theorem LoadInv.core
    (hs : LoadInv s) (hstate : StateInv s) (hkill : KillInv cpu s)
    (hcommand : CommandInv s) (hparam : ParamInv s)
    (h : s.step cpu a = some t) (ha : a.OfCore)
    (hsame : System.SameManager s t) : LoadInv t where
  manager := by
    rw [hsame.manager]
    refine hs.manager.core fun hcalm => ?_
    exact hcalm.step hstate hkill hcommand h (by rw [hsame.managerLog])
      (by rw [hsame.outbox])
  monitor := imageOk_core hs.monitor hcommand h ha
  payload := by
    intro pc hpc hpayload args hargs
    rw [hsame.manager] at hpc
    rw [hsame.managerLog] at hargs ⊢
    rcases showsPayload_core (.inl rfl) h ha hpayload with
      ⟨hold, hentered⟩ | ⟨address, hmonitor, hentered⟩
    · rw [hentered]
      exact hs.payload pc hpc hold args hargs
    · have himage := hs.monitor
      rw [hmonitor] at himage
      obtain ⟨hsettled, haddress, hkept⟩ := himage
      have hcalm : ¬s.Calm := by
        intro hcalm
        have hrest := hcalm.monitor
        rw [hmonitor] at hrest
        exact hrest
      have hcarries := hs.carriesLatest hparam hcalm args hargs
      have hlen : s.managerLog.issued.length = s.monitorLog.outcomes.length :=
        hsettled
      rw [hentered, List.getLast?_concat, hlen, haddress, hkept.image,
        hcarries.entryAddress, hcarries.argument]

theorem LoadInv.step
    (hs : LoadInv s) (hstate : StateInv s) (hkill : KillInv cpu s)
    (hcommand : CommandInv s) (hparam : ParamInv s) (ha : NoStaleStart s a)
    (h : s.step cpu a = some t) : LoadInv t := by
  have hquiet : ∀ t, System.SameExecutor s t →
      t.ipc.managerToExecutor.payloadEntryAddress =
        s.ipc.managerToExecutor.payloadEntryAddress →
      t.managerLog.memoryStores = s.managerLog.memoryStores →
      t.managerLog.issued = s.managerLog.issued →
      t.manager.pc.CalmOk t → (∀ pc, t.manager.pc ≠ .poll pc) → LoadInv t :=
    fun _ => hs.quiet
  have hfinish : ∀ result, LoadInv (s.finish result) := fun result =>
    hquiet _ (s.finish_sameExecutor result) rfl rfl rfl trivial
      (by rintro _ ⟨⟩)
  revert ha
  refine System.step_cases_manager (P := fun a t => NoStaleStart s a → LoadInv t)
    h ?call (fun _ _ hpc _ => hs.startupStep hstate hpc) ?ensure
    (fun _ _ hpc ha => hs.loadStep hstate hcommand hparam hpc ha)
    (fun _ _ hpc ha => hs.startStep hstate hcommand hparam hpc ha)
    (fun _ hpc _ => hs.pollStep hpc) (fun pc _ _ => hs.terminateStep pc) ?await
    (fun _ _ _ => hfinish _) (fun _ _ => hfinish _) (fun _ _ => hfinish _)
    (fun _ _ ht hcore hsame _ =>
      hs.core hstate hkill hcommand hparam ht hcore hsame)
  case call =>
    intro c _ _
    refine hquiet _ (s.beginCall_sameExecutor cpu c) rfl rfl rfl ?_ ?_
    · cases c <;> trivial
    · cases c <;> rintro _ ⟨⟩
  case ensure =>
    intro cntfrq _ _
    have hsame := s.ensureStep_sameExecutor cntfrq
    simp only [System.ensureStep] at hsame ⊢
    split_ifs at hsame ⊢ <;>
      exact hquiet _ hsame rfl rfl rfl trivial (by rintro _ ⟨⟩)
  case await =>
    intro hpc _
    have hsame := s.awaitStep_sameExecutor hpc
    simp only [System.awaitStep] at hsame ⊢
    split_ifs at hsame ⊢
    · exact hquiet _ hsame rfl rfl rfl trivial (by rintro _ ⟨⟩)
    · exact hs

theorem loadInv_of_reachable
    (h : Reachable (System.step cpu) System.Initial NoStaleStart s) :
    LoadInv s := by
  refine h.invariant (fun _ hs => .initial hs) ?_
  intro s a t hreach hs ha ht
  exact hs.step (stateInv_of_reachable hreach) (killInv_of_reachable hreach)
    (commandInv_of_reachable hreach) (paramInv_of_reachable hreach) ha ht

/-! ## Main result -/

/-- What a step must do right: enter the address that has been validated, with
payload memory as it was then; and return success from a loader only with the
payload of that very call. -/
structure LoadRight (cpu : DomainIndex) (s t : System) : Prop where
  validated : ∀ address, s.monitor = .accepted (.enterEl1 address) →
    address = s.monitorLog.validatedImage ∧
      s.monitorLog.storesAtValidation = s.managerLog.memoryStores
  loaded : s.manager.result = none → t.manager.result = some none →
    ∀ c load, s.manager.call = some c → c.load cpu = some load →
      s.monitorLog.entered.getLast? =
        some ⟨s.managerLog.issuedAtCall, load.args.entryAddress,
          load.args.payloadArgument⟩ ∧
      (s.monitor = .el1 .payload ∨ s.monitor.HandlesKill ∨
        s.monitor.Restarts)

/-- A payload that has been started runs, or is being killed. -/
theorem StateInv.running
    (hs : StateInv s) (hreset : s.monitor ≠ .inReset)
    (hword : s.ipc.executorToManager.state =
      DomainState.runningPayload.code) :
    s.monitor = .el1 .payload ∨ s.monitor.HandlesKill ∨
      s.monitor.Restarts := by
  have hok := hs.state
  rw [hword] at hok
  have hready : DomainState.runningPayload.code ≠
      DomainState.monitorReady.code := by decide
  have hstarting : DomainState.runningPayload.code ≠
      DomainState.startingPayload.code := by decide
  have hcrashed : DomainState.runningPayload.code ≠
      DomainState.crashedMonitor.code := by decide
  cases hpc : s.monitor with
  | inReset => exact absurd hpc hreset
  | fiq pc => exact .inr (.inl trivial)
  | boot | setup | publishReady => exact .inr (.inr trivial)
  | loop | noop =>
      rw [hpc] at hok
      exact absurd hok hready
  | command pc =>
      rw [hpc] at hok
      cases pc with
      | writeState => exact absurd hok hready
      | _ => exact absurd hok hstarting
  | accepted | rejected | enterDummy =>
      rw [hpc] at hok
      exact absurd hok hstarting
  | el1 code =>
      cases code with
      | dummy =>
          rw [hpc] at hok
          exact absurd hok hstarting
      | payload => exact .inl rfl
  | crashed =>
      rw [hpc] at hok
      exact absurd hok hcrashed

theorem Call.startArgs_of_load {c : Call} {load : Load}
    (h : c.load cpu = some load) : c.startArgs cpu = some load.args := by
  cases c <;> cases h <;> rfl

/-- In every run in which no start is issued on stale evidence, what runs is
what was validated and what was asked for. -/
theorem load_right
    (h : Reachable (System.step cpu) System.Initial NoStaleStart s)
    (ht : s.step cpu a = some t) : LoadRight cpu s t where
  validated := by
    intro address hpc
    have himage := (loadInv_of_reachable h).monitor
    rw [hpc] at himage
    exact ⟨himage.2.1, himage.2.2.stores⟩
  loaded := by
    intro hnone hr c load hc hload
    have hargs := Call.startArgs_of_load hload
    have hcall := (callInv_of_reachable h).pc
    have hstate := stateInv_of_reachable h
    -- only the polling loop returns success to a loader
    have hother : ∀ {c'}, s.manager.call = some c' → c'.startArgs cpu = none →
        False := by
      intro c' hc' hargs'
      rw [hc] at hc'
      cases hc'
      rw [hargs] at hargs'
      cases hargs'
    obtain ⟨hreturn, -⟩ := System.step_return ht hnone hr
    cases hreturn with
    | ensureReady hpc hready =>
        rw [hpc] at hcall
        exact (hother hcall.1 rfl).elim
    | awaitReady hpc hready =>
        rw [hpc] at hcall
        obtain ⟨⟨c', hc', hargs'⟩, -⟩ := hcall
        exact (hother hc' hargs').elim
    | started hpc hrunning =>
        obtain ⟨hgeneral, hword⟩ := System.getState_eq hrunning (by decide)
        have hreset : s.monitor ≠ .inReset := by
          intro hin
          rcases hstate.general with ⟨hreset, -⟩ | ⟨-, hne⟩
          · rw [hgeneral] at hreset
            cases hreset
          · exact hne hin
        refine ⟨?_, hstate.running hreset hword⟩
        rw [hpc] at hcall
        obtain ⟨c', args, hc', hargs', hlast, hlen⟩ := hcall
        rw [hc] at hc'
        cases hc'
        rw [hargs] at hargs'
        cases hargs'
        have hentered := (loadInv_of_reachable h).payload _ hpc (.inr hword)
          load.args hlast
        rw [hentered, hlen, Nat.add_sub_cancel]

/-- A payload is loaded, entered and confirmed. -/
theorem load_right_started :
    ∃ s t, Reachable (System.step .cpu1) System.Initial NoStaleStart s ∧
      s.step .cpu1 .manager = some t ∧
      s.manager.call = some (.loadElfPayload validElf 7) ∧
      s.monitorLog.entered.getLast? =
        some ⟨s.managerLog.issuedAtCall, validElf.entryAddress, 7⟩ := by
  obtain ⟨s, hreach, hpc, hstate, hnone, hcall⟩ :=
    exists_reachable_of_restrict_run (System.step .cpu1) NoStaleStart
      (startSchedule [smcCall smcNotifyPayloadStarted 0 0])
      (fun s => s.manager.pc = .poll .readState ∧
        s.getState = .runningPayload ∧ s.manager.result = none ∧
        s.manager.call = some (.loadElfPayload validElf 7))
      System.powerOn_initial (by decide +kernel)
  have ht : s.step .cpu1 .manager = some (s.finish none) := by
    simp [System.step, System.managerStep, System.pollStep, hpc, hstate]
  have hright := (load_right hreach ht).loaded hnone rfl _ _ hcall rfl
  exact ⟨s, _, hreach, ht, hcall, hright.1⟩

/-- An image whose entry address is not at the start of the payload area. -/
def shiftedElf : ElfImage where
  stores := []
  error := false
  entryAddress := 0x800100100

/-- A start times out before the monitor has picked it up.  The next one finds
the domain ready, and its first parameter arrives after the validation and
before the entry. -/
def staleStartSchedule : List Action :=
  startupSchedule ++ loadElfSchedule validElf 7 ++
    .timeout :: .call (.loadElfPayload shiftedElf 8) :: managerSteps 4 ++
    validationSchedule ++ managerSteps 5 ++ monitorSteps 1

theorem not_load_right :
    ¬∀ s a t, Reachable (System.step .cpu1) System.Initial anyStep s →
      s.step .cpu1 a = some t → LoadRight .cpu1 s t := by
  intro hall
  obtain ⟨s, -, hreach, hpc, himage⟩ :=
    exists_reachable_of_run (System.step .cpu1) staleStartSchedule
      (fun s => s.monitor = .accepted (.enterEl1 0x800100100) ∧
        s.monitorLog.validatedImage = 0x800100000)
      System.powerOn_initial (by decide +kernel)
  have ht : s.step .cpu1 .monitor =
      some (s.acceptedStep (.enterEl1 0x800100100)) := by
    simp [System.step, System.monitorStep, hpc]
  have hvalidated := ((hall s _ _ hreach ht).validated _ hpc).1
  rw [himage] at hvalidated
  exact absurd hvalidated (by decide)

end Invariant

end Bmboot
