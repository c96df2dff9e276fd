import Bmboot.System.LifeCycle
import Bmboot.System.Loading

/-!
# Crashes during startup

`startPayloadAt` tells a payload that crashes before it confirms its start from
one that crashes afterwards, and its own payload from an earlier one, by a
single state word, which it samples now and then.  The verdict is right as long
as no payload crashes after having confirmed its start while the call polls,
and no payload of an earlier command is left when the call finds the sequence
numbers equal.
-/

namespace Bmboot

open StepSystem

/-- A payload has been accepted, and is entered or runs. -/
def MonitorPc.HostsPayload : MonitorPc → Prop
  | .accepted _ | .el1 .payload => True
  | _ => False

instance : DecidablePred MonitorPc.HostsPayload
  | .accepted _ | .el1 .payload => isTrue trivial
  | .inReset | .fiq _ | .boot | .setup _ | .publishReady | .loop _ | .noop _
  | .command _ | .rejected | .enterDummy | .el1 .dummy | .crashed =>
      isFalse not_false

/-- A payload is on the core, or its crash is still in the state word. -/
def System.Occupied (s : System) : Prop :=
  s.monitor.HostsPayload ∨
    s.ipc.executorToManager.state = DomainState.crashedPayload.code

instance (s : System) : Decidable s.Occupied :=
  inferInstanceAs (Decidable (_ ∨ _))

/-- The polling loop of `startPayloadAt`. -/
def ManagerPc.Polls : ManagerPc → Prop
  | .poll _ => True
  | _ => False

instance : DecidablePred ManagerPc.Polls
  | .poll _ => isTrue trivial
  | .idle | .startup _ _ | .ensure _ | .load _ _ | .start _ _ | .terminate _
  | .await => isFalse not_false

/-- Behind the guard of `startPayloadAt`, up to the issue of the command. -/
def ManagerPc.Issues : ManagerPc → Prop
  | .start _ .checkState | .start _ .readAck | .start _ (.readSeq _) => False
  | .start _ _ => True
  | _ => False

/-- The step is not the report of a crash by a payload that has confirmed its
start, while `startPayloadAt` polls. -/
def NoLateCrash (s : System) : Action → Prop
  | .smc c =>
      c.function = smcNotifyPayloadCrashed →
        .started ∈ s.monitorLog.reports → ¬s.manager.pc.Polls
  | _ => True

instance (s : System) : ∀ a : Action, Decidable (NoLateCrash s a)
  | .smc c =>
      inferInstanceAs (Decidable (c.function = smcNotifyPayloadCrashed →
        .started ∈ s.monitorLog.reports → ¬s.manager.pc.Polls))
  | .call _ | .manager | .fail _ | .timeout | .monitor | .fiq
  | .abort _ _ _ => isTrue trivial

/-- The guard of `startPayloadAt` does not pass while the payload of an earlier
command is left. -/
def ManagerPc.FindsFree (s : System) : ManagerPc → Prop
  | .start _ (.readSeq ack) => ack = s.cmdSeq → ¬s.Occupied
  | _ => True

instance (s : System) : ∀ pc : ManagerPc, Decidable (pc.FindsFree s)
  | .start _ (.readSeq ack) =>
      inferInstanceAs (Decidable (ack = s.cmdSeq → ¬s.Occupied))
  | .start _ .checkState | .start _ .readAck | .start _ .readWrpos
  | .start _ (.writeRdpos _) | .start _ .writeEntryAddress
  | .start _ .writeSize | .start _ .writeCrc | .start _ .writeArgument
  | .start _ .writeCmd | .start _ .incrementSeq | .start _ (.writeSeq _)
  | .idle | .startup _ _ | .ensure _ | .load _ _ | .poll _ | .terminate _
  | .await => isTrue trivial

def NoOverlap (s : System) : Action → Prop
  | .manager => s.manager.pc.FindsFree s
  | _ => True

instance (s : System) : ∀ a : Action, Decidable (NoOverlap s a)
  | .manager => inferInstanceAs (Decidable (s.manager.pc.FindsFree s))
  | .call _ | .fail _ | .timeout | .monitor | .fiq | .smc _ | .abort _ _ _ =>
      isTrue trivial

/-- Neither of the two steps that make the state word misleading. -/
def TellsOwnCrash (s : System) (a : Action) : Prop :=
  NoLateCrash s a ∧ NoOverlap s a

instance (s : System) (a : Action) : Decidable (TellsOwnCrash s a) :=
  inferInstanceAs (Decidable (_ ∧ _))

/-- The payload last entered is the one that the call in progress starts: it
was entered for the command of the call, at the address and with the argument
of the call. -/
def System.EnteredOwn (cpu : DomainIndex) (s : System) : Prop :=
  ∃ c args, s.manager.call = some c ∧ c.startArgs cpu = some args ∧
    s.monitorLog.entered.getLast? =
      some ⟨s.managerLog.issuedAtCall, args.entryAddress,
        args.payloadArgument⟩

/-- What a step of a call may say about the payload it starts: that it crashed
during startup only if that payload did, and of that payload, when it has
confirmed its start and is running, that it was started. -/
structure CrashVerdict (cpu : DomainIndex) (s : System) (a : Action)
    (t : System) : Prop where
  crashed : s.manager.result = none →
    t.manager.result = some (some .payloadCrashedDuringStartup) →
      s.EnteredOwn cpu ∧ .crashed ∈ s.monitorLog.reports ∧
        .started ∉ s.monitorLog.reports
  started : s.manager.pc = .poll .readState → s.monitor = .el1 .payload →
    .started ∈ s.monitorLog.reports → a = .manager →
      s.EnteredOwn cpu ∧ t.manager.result = some none

/-! ## Whose payload is on the core -/

/-- A payload that is about to be entered is that of the latest command, and
starts at the entry address in the block. -/
def MonitorPc.EntersNext (s : System) : MonitorPc → Prop
  | .accepted .readEntryAddress => s.mailbox.Settled
  | .accepted (.enterEl1 address) =>
      s.mailbox.Settled ∧
        address = s.ipc.managerToExecutor.payloadEntryAddress
  | _ => True

/-- No payload is left while a command is being issued; from then on the
payload on the core is that of the command, and if it is known to have crashed
it has not confirmed its start. -/
structure OwnInv (s : System) : Prop where
  issuing : s.manager.pc.Issues → ¬s.Occupied
  entering : s.manager.pc.Polls → s.monitor.EntersNext s
  payload : s.manager.pc.Polls → s.ShowsPayload .crashedPayload →
    s.EntersLatest
  crash : s.manager.pc.Polls →
    s.ipc.executorToManager.state = DomainState.crashedPayload.code →
      .crashed ∈ s.monitorLog.reports ∧ .started ∉ s.monitorLog.reports

section Invariant

variable {cpu : DomainIndex} {s t : System} {a : Action}

theorem CommandInv.settled_of_issues
    (hs : CommandInv s) (h : s.manager.pc.Issues) : s.mailbox.Settled := by
  have hok := hs.manager
  cases hpc : s.manager.pc with
  | start args pc =>
      rw [hpc] at hok h
      cases pc with
      | checkState | readAck | readSeq => exact h.elim
      | writeSeq seq => exact hok.2.1
      | _ => exact hok.2
  | _ =>
      rw [hpc] at h
      exact h.elim

/-- Nothing is known outside of `startPayloadAt`. -/
theorem OwnInv.outside
    (hissues : ¬t.manager.pc.Issues) (hpolls : ¬t.manager.pc.Polls) :
    OwnInv t where
  issuing h := absurd h hissues
  entering h := absurd h hpolls
  payload h := absurd h hpolls
  crash h := absurd h hpolls

theorem OwnInv.finish (s : System) (r : MaybeError) : OwnInv (s.finish r) :=
  .outside not_false not_false

theorem System.Occupied.sameExecutor
    (hsame : System.SameExecutor s t) (h : t.Occupied) : s.Occupied := by
  rcases h with hmonitor | hword
  · rw [hsame.monitor] at hmonitor
    exact .inl hmonitor
  · rw [hsame.inbox] at hword
    exact .inr hword

theorem OwnInv.startStep
    (hs : OwnInv s) {args : StartArgs} {pc : StartPc}
    (hpc : s.manager.pc = .start args pc) (ha : NoOverlap s .manager) :
    OwnInv (s.startStep args pc) := by
  have hissuing := hs.issuing
  rw [hpc] at hissuing
  have hfree := s.startStep_sameExecutor args pc
  -- while the command is written, the core stays as it was found
  have hgoOn : ∀ {t : System}, System.SameExecutor s t → ¬s.Occupied →
      ¬t.manager.pc.Polls → OwnInv t := by
    intro t hsame hnone hpolls
    exact ⟨fun _ hocc => hnone (hocc.sameExecutor hsame),
      fun h => absurd h hpolls, fun h => absurd h hpolls,
      fun h => absurd h hpolls⟩
  cases pc with
  | checkState =>
      simp only [System.startStep]
      split_ifs
      · exact .finish s _
      · exact .outside not_false not_false
  | readAck => exact .outside not_false not_false
  | readSeq ack =>
      simp only [System.startStep] at hfree ⊢
      split_ifs at hfree ⊢ with hack
      · exact .finish s _
      · simp only [NoOverlap, hpc, ManagerPc.FindsFree] at ha
        exact hgoOn hfree (ha (not_not.mp hack)) not_false
  | writeSeq seq =>
      have hnone : ¬s.Occupied := hissuing trivial
      refine ⟨fun h => h.elim, fun _ => ?_, fun _ hpayload => ?_,
        fun _ hword => ?_⟩
      · have hhosts : ¬s.monitor.HostsPayload := fun h => hnone (.inl h)
        simp only [System.startStep, System.gotoManager, System.setOutbox]
        cases hmonitor : s.monitor with
        | accepted pc =>
            rw [hmonitor] at hhosts
            exact absurd trivial hhosts
        | _ => trivial
      · rcases hpayload with hmonitor | hword
        · refine absurd (.inl ?_) hnone
          have hruns : s.monitor = .el1 .payload := hmonitor
          rw [hruns]
          trivial
        · exact absurd (.inr hword) hnone
      · exact absurd (.inr hword) hnone
  | _ => exact hgoOn hfree (hissuing trivial) not_false

theorem OwnInv.pollStep
    (hs : OwnInv s) {pc : PollPc} (hpc : s.manager.pc = .poll pc) :
    OwnInv (s.pollStep pc) := by
  have hpolls : s.manager.pc.Polls := by
    rw [hpc]
    trivial
  have hgoOn : ∀ pc', OwnInv (s.gotoManager (.poll pc')) := by
    intro pc'
    refine ⟨fun h => h.elim, fun _ => ?_, fun _ => hs.payload hpolls,
      fun _ => hs.crash hpolls⟩
    have hentering := hs.entering hpolls
    simp only [System.gotoManager]
    cases hmonitor : s.monitor with
    | accepted pc =>
        rw [hmonitor] at hentering
        cases pc <;> exact hentering
    | _ => trivial
  cases pc with
  | readAck => exact hgoOn _
  | readSeq ack =>
      simp only [System.pollStep]
      split_ifs <;> exact hgoOn _
  | readResp =>
      simp only [System.pollStep]
      split_ifs
      · exact hgoOn _
      all_goals exact .finish s _
  | readState =>
      simp only [System.pollStep]
      split_ifs
      · exact .finish s _
      · exact .finish s _
      · exact hgoOn _

/-- The state word comes to `crashed_payload` only by a report. -/
theorem crashedPayload_of_step
    (hstate : StateInv s) (h : s.step cpu a = some t)
    (ht : t.ipc.executorToManager.state = DomainState.crashedPayload.code) :
    (∃ c, a = .smc c ∧ c.function = smcNotifyPayloadCrashed ∧
        t.monitorLog.reports = s.monitorLog.reports ++ [.crashed]) ∨
      (s.ipc.executorToManager.state = DomainState.crashedPayload.code ∧
        t.monitorLog.reports = s.monitorLog.reports) := by
  cases System.step_stateEffect hstate h with
  | none hreport hreports => exact .inr ⟨hreport.state.symm.trans ht, hreports⟩
  | entered hs hreport =>
      have hstarting := hreport.state.trans hs
      exact absurd (hstarting.symm.trans ht) (by decide)
  | startup _ hword =>
      rcases hword with hword | hword
      · exact absurd (hword.symm.trans ht) (by decide)
      · exact absurd (hword.symm.trans ht) (by decide)
  | restart _ _ hword => exact absurd (hword.symm.trans ht) (by decide)
  | command _ hword => exact absurd (hword.symm.trans ht) (by decide)
  | rejected _ hword => exact absurd (hword.symm.trans ht) (by decide)
  | smc c hc _ hsmc =>
      subst hsmc
      rcases System.smcStep_effect cpu s c with
        ⟨-, -, hword, -⟩ | ⟨hcrashed, -, -, hreports⟩ | ⟨-, hword, hreports⟩ |
          ⟨-, -, -, hword, -⟩
      · exact absurd (hword.symm.trans ht) (by decide)
      · exact .inl ⟨c, hc, hcrashed, hreports⟩
      · exact .inr ⟨hword.symm.trans ht, hreports⟩
      · exact absurd (hword.symm.trans ht) (by decide)
  | crashedMonitor hword => exact absurd (hword.symm.trans ht) (by decide)

/-- A monitor call is made by a payload. -/
theorem System.el1_of_smc {c : SmcCall} (h : s.step cpu (.smc c) = some t) :
    s.monitor = .el1 .payload := by
  have hsmc : s.smc cpu c = some t := h
  unfold System.smc at hsmc
  split at hsmc
  · assumption
  · cases hsmc

/-- Only the answer to a pending command brings a payload to the core. -/
theorem hostsPayload_core
    (hcommand : CommandInv s) (h : s.step cpu a = some t) (ha : a.OfCore)
    (ht : t.monitor.HostsPayload) :
    s.monitor.HostsPayload ∨ s.mailbox.Pending := by
  revert ht
  refine System.step_cases_ofCore
    (P := fun _ t => t.monitor.HostsPayload →
      s.monitor.HostsPayload ∨ s.mailbox.Pending) h ha
    ?fiqStep (fun _ ht => ht.elim) ?setup (fun _ ht => ht.elim) ?loop ?noop
    ?command ?accepted (fun _ ht => ht.elim) (fun _ ht => ht.elim)
    (fun _ _ _ ht => ht.elim) ?smc (fun _ _ _ _ _ _ ht => ht.elim)
  case fiqStep =>
    intro pc _
    simp only [System.fiqStep]
    split <;> exact fun ht => ht.elim
  case setup =>
    intro pc _
    simp only [System.setupStep]
    split <;> exact fun ht => ht.elim
  case loop =>
    intro pc _
    cases pc <;> simp only [System.loopStep] <;> (try split_ifs) <;>
      exact fun ht => ht.elim
  case noop =>
    intro pc _
    cases pc <;> exact fun ht => ht.elim
  case command =>
    intro pc hpc _
    have hok := hcommand.monitor
    rw [hpc] at hok
    cases pc with
    | writeAck resp ack => exact .inr hok.1
    | _ => exact .inr hok
  case accepted =>
    intro pc hpc _
    rw [hpc]
    exact .inl trivial
  case smc =>
    intro c hpc _
    rw [hpc]
    exact .inl trivial

/-- A command is answered, its entry address read, and its payload entered. -/
theorem entersNext_core
    (hs : s.monitor.EntersNext s) (hcommand : CommandInv s)
    (h : s.step cpu a = some t) (ha : a.OfCore) : t.monitor.EntersNext t := by
  refine System.step_cases_ofCore (P := fun _ t => t.monitor.EntersNext t) h ha
    ?fiqStep (fun _ => trivial) ?setup (fun _ => trivial) ?loop ?noop ?command
    ?accepted (fun _ => trivial) (fun _ => trivial) (fun _ _ _ => trivial) ?smc
    (fun _ _ _ _ _ _ => trivial)
  case fiqStep =>
    intro pc _
    simp only [System.fiqStep]
    split <;> trivial
  case setup =>
    intro pc _
    simp only [System.setupStep]
    split <;> trivial
  case loop =>
    intro pc _
    cases pc <;> simp only [System.loopStep] <;> (try split_ifs) <;> trivial
  case noop =>
    intro pc _
    cases pc <;> trivial
  case command =>
    intro pc hpc
    cases pc with
    | checkEntryAddress =>
        simp only [System.commandStep]
        split_ifs <;> trivial
    | validate call pc =>
        simp only [System.commandStep]
        split <;> trivial
    | writeAck resp ack =>
        have hpending := hcommand.monitor
        rw [hpc] at hpending
        simp only [System.commandStep]
        split_ifs
        · exact Mailbox.settled_answer (Outcome.verdict resp) hpending.1
        · trivial
    | _ => trivial
  case accepted =>
    intro pc hpc
    rw [hpc] at hs
    cases pc with
    | readEntryAddress => exact ⟨hs, rfl⟩
    | enterEl1 address => trivial
  case smc =>
    intro c _
    rcases System.smcStep_monitor cpu s c with hmonitor | hmonitor <;>
      rw [hmonitor] <;> trivial

theorem OwnInv.core
    (hs : OwnInv s) (hstate : StateInv s) (hcommand : CommandInv s)
    (hparam : ParamInv s) (ha : NoLateCrash s a) (h : s.step cpu a = some t)
    (hcore : a.OfCore) (hsame : System.SameManager s t) : OwnInv t where
  issuing := by
    intro hissues hocc
    rw [hsame.manager] at hissues
    have hnone := hs.issuing hissues
    have hsettled : s.mailbox.Settled := hcommand.settled_of_issues hissues
    rcases hocc with hhosts | hword
    · rcases hostsPayload_core hcommand h hcore hhosts with hold | hpending
      · exact hnone (.inl hold)
      · exact hsettled.not_pending hpending
    · rcases crashedPayload_of_step hstate h hword with
        ⟨c, rfl, -⟩ | ⟨hold, -⟩
      · refine hnone (.inl ?_)
        rw [System.el1_of_smc h]
        trivial
      · exact hnone (.inr hold)
  entering := by
    intro hpolls
    rw [hsame.manager] at hpolls
    exact entersNext_core (hs.entering hpolls) hcommand h hcore
  payload := by
    intro hpolls hpayload args hargs
    rw [hsame.manager] at hpolls
    rw [hsame.managerLog] at hargs ⊢
    rcases showsPayload_core (.inr rfl) h hcore hpayload with
      ⟨hold, hentered⟩ | ⟨address, hmonitor, hentered⟩
    · rw [hentered]
      exact hs.payload hpolls hold args hargs
    · have hentering := hs.entering hpolls
      rw [hmonitor] at hentering
      obtain ⟨hsettled, haddress⟩ := hentering
      have hcarries := hparam.carriesLatest
        (fun args pc hpc => by rw [hpc] at hpolls; exact hpolls) args hargs
      have hlen : s.managerLog.issued.length = s.monitorLog.outcomes.length :=
        hsettled
      rw [hentered, List.getLast?_concat, hlen, haddress,
        hcarries.entryAddress, hcarries.argument]
  crash := by
    intro hpolls hword
    rw [hsame.manager] at hpolls
    rcases crashedPayload_of_step hstate h hword with
      ⟨c, rfl, hc, hreports⟩ | ⟨hold, hreports⟩
    · rw [hreports]
      refine ⟨List.mem_append_right _ (List.mem_singleton.mpr rfl), ?_⟩
      intro hstarted
      rcases List.mem_append.mp hstarted with hold | hnew
      · exact ha hc hold hpolls
      · cases List.mem_singleton.mp hnew
    · rw [hreports]
      exact hs.crash hpolls hold

theorem OwnInv.step
    (hs : OwnInv s) (hstate : StateInv s) (hcommand : CommandInv s)
    (hparam : ParamInv s) (ha : TellsOwnCrash s a)
    (h : s.step cpu a = some t) : OwnInv t := by
  revert ha
  refine System.step_cases_manager
    (P := fun a t => TellsOwnCrash s a → OwnInv t) h ?call ?startup ?ensure
    ?load (fun _ _ hpc ha => hs.startStep hpc ha.2)
    (fun _ hpc _ => hs.pollStep hpc) ?terminate ?await
    (fun _ _ _ => .finish s _) (fun _ _ => .finish s _) (fun _ _ => .finish s _)
    (fun _ _ ht hcore hsame ha =>
      hs.core hstate hcommand hparam ha.1 ht hcore hsame)
  case call =>
    intro c _ _
    cases c <;> exact .outside not_false not_false
  case startup =>
    intro cntfrq pc _ _
    cases pc <;> simp only [System.startupStep] <;> (try split) <;>
      exact .outside not_false not_false
  case ensure =>
    intro cntfrq _ _
    simp only [System.ensureStep]
    split_ifs <;> exact .outside not_false not_false
  case load =>
    intro load pc _ _
    cases pc with
    | checkState =>
        simp only [System.loadStep]
        split_ifs <;> exact .outside not_false not_false
    | map =>
        simp only [System.loadStep]
        split <;> exact .outside not_false not_false
    | store stores =>
        cases stores with
        | cons p rest => exact .outside not_false not_false
        | nil =>
            simp only [System.loadStep]
            split <;> exact .outside not_false not_false
  case terminate =>
    intro pc _ _
    cases pc <;> simp only [System.terminateStep] <;> (try split_ifs) <;>
      exact .outside not_false not_false
  case await =>
    intro hpc _
    simp only [System.awaitStep]
    split_ifs
    · exact .finish s _
    · refine .outside ?_ ?_ <;> rw [hpc] <;> exact not_false

theorem ownInv_of_reachable
    (h : Reachable (System.step cpu) System.Initial TellsOwnCrash s) :
    OwnInv s := by
  refine h.invariant ?_ ?_
  · intro s hs
    refine .outside ?_ ?_ <;> rw [hs.pc] <;> exact not_false
  · intro s a t hreach hs ha ht
    exact hs.step (stateInv_of_reachable hreach)
      (commandInv_of_reachable hreach) (paramInv_of_reachable hreach) ha ht

/-- The payload that the polling loop looks at is that of the call. -/
theorem OwnInv.enteredOwn
    (hs : OwnInv s) (hcall : CallInv cpu s) {pc : PollPc}
    (hpc : s.manager.pc = .poll pc) (hpayload : s.ShowsPayload .crashedPayload) :
    s.EnteredOwn cpu := by
  have hok := hcall.pc
  rw [hpc] at hok
  obtain ⟨c, args, hc, hargs, hlast, hlen⟩ := hok
  have hpolls : s.manager.pc.Polls := by
    rw [hpc]
    trivial
  have hentered := hs.payload hpolls hpayload args hlast
  rw [hlen, Nat.add_sub_cancel] at hentered
  exact ⟨c, args, hc, hargs, hentered⟩

/-! ## Main result -/

/-- In every run in which no payload crashes late and no command is issued over
the payload of an earlier one, every verdict is right. -/
theorem crash_verdicts_right
    (h : Reachable (System.step cpu) System.Initial TellsOwnCrash s)
    (ht : s.step cpu a = some t) : CrashVerdict cpu s a t where
  crashed := by
    intro hnone hr
    have hcall : CallInv cpu s := callInv_of_reachable h
    obtain ⟨hreturn, -⟩ := System.step_return ht hnone hr
    have hpoint := hreturn.of_crashed hcall
    have hword := (System.getState_eq hpoint.2 (by decide)).2
    have hown := ownInv_of_reachable h
    refine ⟨hown.enteredOwn hcall hpoint.1 (.inr hword), hown.crash ?_ hword⟩
    rw [hpoint.1]
    trivial
  started := by
    rintro hpc hmonitor hstarted rfl
    have hown := ownInv_of_reachable h
    refine ⟨hown.enteredOwn (callInv_of_reachable h) hpc (.inl hmonitor), ?_⟩
    have hinv := stateInv_of_reachable h
    have hgeneral := hinv.started (by simp [hmonitor])
    have hword := hinv.state
    rw [hmonitor] at hword
    have hrunning : s.getState = .runningPayload := by
      rcases hword with ⟨-, hreports⟩ | ⟨hword, -⟩ | ⟨hword, -⟩
      · simp [hreports] at hstarted
      · exact System.getState_of_code hgeneral hword
      · have hcrash := hown.crash (by rw [hpc]; trivial) hword
        exact absurd hstarted hcrash.2
    have hstep : s.managerStep = some t := ht
    simp only [System.managerStep, hpc, System.pollStep, hrunning, if_true,
      Option.some.injEq] at hstep
    rw [← hstep]
    rfl

/-- The payload confirms its start. -/
theorem crash_verdicts_right_started :
    ∃ s t, Reachable (System.step .cpu1) System.Initial TellsOwnCrash s ∧
      s.EnteredOwn .cpu1 ∧ .started ∈ s.monitorLog.reports ∧
      s.step .cpu1 .manager = some t ∧ t.manager.result = some none := by
  obtain ⟨s, hreach, hpc, hmonitor, hstarted⟩ :=
    exists_reachable_of_restrict_run (System.step .cpu1) TellsOwnCrash
      (startSchedule [smcCall smcNotifyPayloadStarted 0 0])
      (fun s => s.manager.pc = .poll .readState ∧
        s.monitor = .el1 .payload ∧ .started ∈ s.monitorLog.reports)
      System.powerOn_initial (by decide +kernel)
  obtain ⟨t, ht⟩ : ∃ t, s.step .cpu1 .manager = some t := by
    simp [System.step, System.managerStep, hpc]
  have hverdict :=
    (crash_verdicts_right hreach ht).started hpc hmonitor hstarted rfl
  exact ⟨s, t, hreach, hverdict.1, hstarted, ht, hverdict.2⟩

/-- The payload crashes right after it has confirmed its start, and the manager
takes it for a crash during startup. -/
theorem not_crash_verdicts_right :
    ¬∀ s a t, Reachable (System.step .cpu1) System.Initial anyStep s →
      s.step .cpu1 a = some t → CrashVerdict .cpu1 s a t := by
  intro hall
  obtain ⟨s, -, hreach, hpc, hmonitor, hstarted, hstate⟩ :=
    exists_reachable_of_run (System.step .cpu1)
      (startSchedule [smcCall smcNotifyPayloadStarted 0 0,
        smcCall smcNotifyPayloadCrashed 0 0])
      (fun s => s.manager.pc = .poll .readState ∧
        s.monitor = .el1 .payload ∧ .started ∈ s.monitorLog.reports ∧
        s.getState = .crashedPayload)
      System.powerOn_initial (by decide +kernel)
  have ht : s.step .cpu1 .manager =
      some (s.finish (some .payloadCrashedDuringStartup)) := by
    simp [System.step, System.managerStep, System.pollStep, hpc, hstate]
  have hverdict := (hall s _ _ hreach ht).started hpc hmonitor hstarted rfl
  cases hverdict.2

end Invariant

end Bmboot
