import Bmboot.System.Calls

/-!
# Rejected starts

`cmd_resp` is never cleared, and a noop does not write it.  It is nevertheless
the answer to the latest command whenever that command has been acknowledged
with a verdict, so that a rejection returned by `startPayloadAt` is the verdict
of `validatePayload` on the command of that call.
-/

namespace Bmboot

open StepSystem

/-- The latest command asks for a payload to be validated. -/
def System.LatestValidated (s : System) : Prop :=
  ∀ args, s.managerLog.issued.getLast? = some args →
    args.entryAddress ≠ dummyEntryAddress

/-- What the monitor knows about the command it is answering. -/
def CommandPc.AnswerOk (s : System) : CommandPc → Prop
  | .readEntryAddress | .readSize _ | .readCrc _ _ | .validate _ _ =>
      s.LatestValidated
  | .writeResp resp =>
      s.LatestValidated ∧
        (s.monitorLog.outcomes.length, resp) ∈ s.monitorLog.validations
  | .readAck resp | .writeAck resp _ =>
      s.LatestValidated ∧
        (s.monitorLog.outcomes.length, resp) ∈ s.monitorLog.validations ∧
        s.ipc.executorToManager.cmdResp = resp.code
  | _ => True

def MonitorPc.AnswerOk (s : System) : MonitorPc → Prop
  | .command pc => pc.AnswerOk s
  | .enterDummy =>
      ∀ args, s.managerLog.issued.getLast? = some args →
        args.entryAddress = dummyEntryAddress
  | _ => True

structure AnswerInv (s : System) : Prop where
  monitor : s.monitor.AnswerOk s
  /-- After a verdict, `cmd_resp` holds it. -/
  response : s.mailbox.Settled → ∀ resp,
    s.monitorLog.outcomes.getLast? = some (.verdict resp) →
      s.ipc.executorToManager.cmdResp = resp.code
  validated : ∀ k resp, s.monitorLog.outcomes[k]? = some (.verdict resp) →
    (k, resp) ∈ s.monitorLog.validations ∧
      ∀ args, s.managerLog.issued[k]? = some args →
        args.entryAddress ≠ dummyEntryAddress
  dummy : ∀ k ∈ s.monitorLog.dummyEntered, ∃ args,
    s.managerLog.issued[k]? = some args ∧
      args.entryAddress = dummyEntryAddress

section Answers

variable {cpu : DomainIndex} {s t : System} {a : Action}

theorem AnswerInv.initial (h : s.Initial) : AnswerInv s where
  monitor := by simp [h.monitor, MonitorPc.AnswerOk]
  response := by simp [h.outcomes]
  validated := by simp [h.outcomes]
  dummy := by simp [h.dummyEntered]

/-- What the core has answered and recorded is the same. -/
structure System.SameAnswers (s t : System) : Prop where
  monitor : t.monitor = s.monitor
  inbox : t.ipc.executorToManager.cmdResp = s.ipc.executorToManager.cmdResp
  monitorLog : t.monitorLog = s.monitorLog

theorem AnswerInv.quiet
    (hs : AnswerInv s) (hsame : s.SameAnswers t)
    (hissued : t.managerLog.issued = s.managerLog.issued) : AnswerInv t where
  monitor := by
    have hok := hs.monitor
    rw [hsame.monitor]
    cases h : s.monitor with
    | command pc =>
        rw [h] at hok
        cases pc <;>
          simp only [MonitorPc.AnswerOk, CommandPc.AnswerOk,
            System.LatestValidated, hsame.inbox, hsame.monitorLog,
            hissued] at hok ⊢ <;> exact hok
    | enterDummy =>
        rw [h] at hok
        simp only [MonitorPc.AnswerOk, hissued] at hok ⊢
        exact hok
    | _ => trivial
  response := by
    simp only [System.mailbox, hsame.monitorLog, hissued, hsame.inbox]
    exact hs.response
  validated := by
    rw [hsame.monitorLog, hissued]
    exact hs.validated
  dummy := by
    rw [hsame.monitorLog, hissued]
    exact hs.dummy

/-- A command is issued while the monitor answers none. -/
theorem AnswerInv.issue
    (hs : AnswerInv s) (hcommand : CommandInv s) {args : StartArgs}
    (hsettled : s.mailbox.Settled) (hsame : s.SameAnswers t)
    (hissued : t.managerLog.issued = s.managerLog.issued ++ [args]) :
    AnswerInv t where
  monitor := by
    have hpending := hcommand.monitor
    rw [hsame.monitor]
    cases h : s.monitor with
    | command pc =>
        rw [h] at hpending
        cases pc with
        | writeAck resp ack => exact absurd hpending.1 hsettled.not_pending
        | _ => exact absurd hpending hsettled.not_pending
    | enterDummy =>
        rw [h] at hpending
        exact absurd hpending hsettled.not_pending
    | _ => trivial
  response := by
    intro hagain
    have hpending : t.mailbox.Pending := by
      have hmailbox : t.mailbox =
          ⟨s.mailbox.requests ++ [args], s.mailbox.answers⟩ := by
        simp only [System.mailbox, hissued, hsame.monitorLog]
      rw [hmailbox]
      exact Mailbox.pending_issue args hsettled
    exact absurd hpending hagain.not_pending
  validated := by
    intro k resp hk
    rw [hsame.monitorLog] at hk ⊢
    obtain ⟨hmem, hentry⟩ := hs.validated k resp hk
    refine ⟨hmem, ?_⟩
    have hlt : k < s.managerLog.issued.length :=
      (List.getElem?_eq_some_iff.mp hk).1.trans_le hcommand.alternates.answers_le
    rw [hissued, List.getElem?_append_left hlt]
    exact hentry
  dummy := by
    intro k hk
    rw [hsame.monitorLog] at hk
    obtain ⟨last, hlast, hentry⟩ := hs.dummy k hk
    have hlt : k < s.managerLog.issued.length :=
      (List.getElem?_eq_some_iff.mp hlast).1
    exact ⟨last, by rw [hissued, List.getElem?_append_left hlt, hlast], hentry⟩

/-- The core neither answers nor enters the dummy payload. -/
theorem AnswerInv.core
    (hs : AnswerInv s) (hsame : System.SameManager s t)
    (hresp : t.ipc.executorToManager.cmdResp =
      s.ipc.executorToManager.cmdResp)
    (houtcomes : t.monitorLog.outcomes = s.monitorLog.outcomes)
    (hvalidations : t.monitorLog.validations = s.monitorLog.validations)
    (hdummy : t.monitorLog.dummyEntered = s.monitorLog.dummyEntered)
    (hpc : t.monitor.AnswerOk t) : AnswerInv t where
  monitor := hpc
  response := by
    simp only [System.mailbox, hsame.managerLog, houtcomes, hresp]
    exact hs.response
  validated := by
    rw [hsame.managerLog, houtcomes, hvalidations]
    exact hs.validated
  dummy := by
    rw [hsame.managerLog, hdummy]
    exact hs.dummy

/-- The pending command is the latest one. -/
theorem getElem?_issued_of_pending (hpending : s.mailbox.Pending) :
    s.managerLog.issued[s.monitorLog.outcomes.length]? =
      s.managerLog.issued.getLast? := by
  have hlen : s.managerLog.issued.length =
      s.monitorLog.outcomes.length + 1 := hpending
  rw [List.getLast?_eq_getElem?, hlen, Nat.add_sub_cancel]

theorem AnswerInv.acknowledge
    (hs : AnswerInv s) {ack : BitVec 32} {outcome : Outcome} (pc : MonitorPc)
    (hpending : s.mailbox.Pending) (hpc : pc.AnswerOk t)
    (ht : t = (s.acknowledge ack outcome).gotoMonitor pc)
    (hverdict : ∀ resp, outcome = .verdict resp →
      s.LatestValidated ∧
        (s.monitorLog.outcomes.length, resp) ∈ s.monitorLog.validations ∧
        s.ipc.executorToManager.cmdResp = resp.code) :
    AnswerInv t where
  monitor := by
    rw [ht] at hpc ⊢
    exact hpc
  response := by
    intro _ resp hlast
    have houtcome : outcome = .verdict resp := by
      simpa [ht, System.acknowledge, System.gotoMonitor] using hlast
    rw [ht]
    exact (hverdict resp houtcome).2.2
  validated := by
    intro k resp hk
    rw [ht] at hk ⊢
    by_cases hlt : k < s.monitorLog.outcomes.length
    · exact hs.validated k resp ((List.getElem?_append_left hlt).symm.trans hk)
    · have hk' : (s.monitorLog.outcomes ++ [outcome])[k]? =
          some (.verdict resp) := hk
      have hlen := (List.getElem?_eq_some_iff.mp hk').1
      have hkeq : k = s.monitorLog.outcomes.length := by
        rw [List.length_append, List.length_singleton] at hlen
        omega
      subst hkeq
      have houtcome : outcome = .verdict resp := by simpa using hk'
      obtain ⟨hlatest, hmem, -⟩ := hverdict resp houtcome
      refine ⟨hmem, ?_⟩
      intro args hargs
      refine hlatest args ?_
      rw [← getElem?_issued_of_pending hpending]
      exact hargs
  dummy := by
    rw [ht]
    exact hs.dummy

/-! ## Steps -/

theorem AnswerInv.startStep
    (hs : AnswerInv s) (hcommand : CommandInv s) {args : StartArgs}
    {pc : StartPc} (hpc : s.manager.pc = .start args pc) :
    AnswerInv (s.startStep args pc) := by
  have hok := hcommand.manager
  rw [hpc] at hok
  have hsame := s.startStep_sameExecutor args pc
  have hanswers : s.SameAnswers (s.startStep args pc) :=
    ⟨hsame.monitor, by rw [hsame.inbox], hsame.monitorLog⟩
  cases pc with
  | writeSeq seq => exact hs.issue hcommand hok.2.1 hanswers rfl
  | checkState =>
      refine hs.quiet hanswers ?_
      simp only [System.startStep]
      split_ifs <;> rfl
  | readSeq ack =>
      refine hs.quiet hanswers ?_
      simp only [System.startStep]
      split_ifs <;> rfl
  | _ => exact hs.quiet hanswers rfl

theorem AnswerInv.startupStep
    (hs : AnswerInv s) (hstate : StateInv s) (hcommand : CommandInv s)
    {cntfrq : BitVec 32} {pc : StartupPc}
    (hpc : s.manager.pc = .startup cntfrq pc) :
    AnswerInv (s.startupStep cntfrq pc) := by
  have hreset := hstate.startup cntfrq pc hpc
  cases pc with
  | guard =>
      simp only [System.startupStep]
      split_ifs <;> exact hs.quiet ⟨rfl, rfl, rfl⟩ rfl
  | clearIpc =>
      have hin : s.monitor = .inReset := hreset
      obtain ⟨-, houtcomes⟩ := hcommand.fresh hin
      have hnone : ∀ resp,
          s.monitorLog.outcomes.getLast? ≠ some (.verdict resp) := by
        simp [houtcomes]
      refine ⟨?_, ?_, hs.validated, hs.dummy⟩
      · simp [System.startupStep, System.gotoManager, hin, MonitorPc.AnswerOk]
      · exact fun _ resp hlast => absurd hlast (hnone resp)
  | writeState => exact hs.quiet ⟨rfl, rfl, rfl⟩ rfl
  | writeCntfrq => exact hs.quiet ⟨rfl, rfl, rfl⟩ rfl
  | bootCore =>
      simp only [System.startupStep]
      split
      · exact ⟨trivial, hs.response, hs.validated, hs.dummy⟩
      · exact hs.quiet ⟨rfl, rfl, rfl⟩ rfl

theorem AnswerInv.commandStep
    (hs : AnswerInv s) (hcommand : CommandInv s) (hparam : ParamInv s)
    {pc : CommandPc} (hpc : s.monitor = .command pc) :
    AnswerInv (s.commandStep pc) := by
  have hok := hs.monitor
  rw [hpc] at hok
  have hpending := hcommand.monitor
  rw [hpc] at hpending
  have hsame := (s.commandStep_mainFrame pc).toSameManager
  cases pc with
  | checkEntryAddress =>
      have hentry : ∀ args, s.managerLog.issued.getLast? = some args →
          args.entryAddress =
            s.ipc.managerToExecutor.payloadEntryAddress := fun args hargs =>
        (hparam.carries_of_pending hcommand hpending args hargs).1.symm
      simp only [System.commandStep] at hsame ⊢
      split_ifs at hsame ⊢ with hdummy
      · refine hs.core hsame rfl rfl rfl rfl ?_
        intro args hargs
        exact (hentry args hargs).trans hdummy
      · refine hs.core hsame rfl rfl rfl rfl ?_
        intro args hargs heq
        exact hdummy ((hentry args hargs).symm.trans heq)
  | validate call pc =>
      simp only [System.commandStep] at hsame ⊢
      split at hsame
      · exact hs.core hsame rfl rfl rfl rfl hok
      next resp _ =>
        refine ⟨⟨hok, ?_⟩, hs.response, ?_, hs.dummy⟩
        · exact List.mem_append_right _ (List.mem_singleton.mpr rfl)
        · intro k resp' hk
          obtain ⟨hmem, hentry⟩ := hs.validated k resp' hk
          exact ⟨List.mem_append_left _ hmem, hentry⟩
  | writeResp resp =>
      refine ⟨⟨hok.1, hok.2, rfl⟩, ?_, hs.validated, hs.dummy⟩
      intro hsettled
      exact absurd hpending hsettled.not_pending
  | writeAck resp ack =>
      refine hs.acknowledge (if resp = .crcOk then
        .accepted .readEntryAddress else .rejected) hpending.1 ?_ rfl ?_
      · split_ifs <;> trivial
      · rintro _ ⟨⟩
        exact hok
  | _ => exact hs.core hsame rfl rfl rfl rfl hok

theorem AnswerInv.enterDummyStep
    (hs : AnswerInv s) (hcommand : CommandInv s)
    (hpc : s.monitor = .enterDummy) : AnswerInv s.enterDummyStep := by
  have hok := hs.monitor
  rw [hpc] at hok
  have hpending := hcommand.monitor
  rw [hpc] at hpending
  refine ⟨trivial, hs.response, hs.validated, ?_⟩
  intro k hk
  rcases List.mem_append.mp hk with hk | hk
  · exact hs.dummy k hk
  · rw [List.mem_singleton.mp hk]
    have hlen : s.managerLog.issued.length =
        s.monitorLog.outcomes.length + 1 := hpending
    have hlt : s.monitorLog.outcomes.length < s.managerLog.issued.length := by
      omega
    refine ⟨s.managerLog.issued[s.monitorLog.outcomes.length],
      List.getElem?_eq_getElem hlt, ?_⟩
    refine hok _ ?_
    rw [← getElem?_issued_of_pending hpending]
    exact List.getElem?_eq_getElem hlt

theorem AnswerInv.step
    (hs : AnswerInv s) (hstate : StateInv s) (hcommand : CommandInv s)
    (hparam : ParamInv s) (h : s.step cpu a = some t) : AnswerInv t := by
  have hquiet : ∀ t, System.SameExecutor s t →
      t.managerLog.issued = s.managerLog.issued → AnswerInv t := by
    intro t hsame hissued
    exact hs.quiet ⟨hsame.monitor, by rw [hsame.inbox], hsame.monitorLog⟩
      hissued
  refine System.step_cases (P := fun _ t => AnswerInv t) h
    (fun c _ => hs.quiet ⟨rfl, rfl, rfl⟩ rfl)
    (fun cntfrq pc hpc => hs.startupStep hstate hcommand hpc)
    (fun cntfrq _ => hquiet _ (s.ensureStep_sameExecutor cntfrq)
      (s.ensureStep_issued cntfrq))
    (fun load pc _ => hquiet _ (s.loadStep_sameExecutor load pc)
      (s.loadStep_issued load pc))
    (fun args pc hpc => hs.startStep hcommand hpc)
    (fun pc _ => hquiet _ (s.pollStep_sameExecutor pc) (s.pollStep_issued pc))
    ?terminate
    (fun hpc => hquiet _ (s.awaitStep_sameExecutor hpc) s.awaitStep_issued)
    (fun _ _ => hs.quiet ⟨rfl, rfl, rfl⟩ rfl)
    (fun _ => hs.quiet ⟨rfl, rfl, rfl⟩ rfl)
    (fun _ => hs.quiet ⟨rfl, rfl, rfl⟩ rfl)
    ?fiqStep
    (fun _ => hs.core s.bootStep_sameManager rfl rfl rfl rfl trivial) ?setup
    (fun _ => hs.core s.publishReadyStep_sameManager rfl rfl rfl rfl trivial)
    ?loop ?noop
    (fun pc hpc => hs.commandStep hcommand hparam hpc) ?accepted
    (fun _ => hs.core s.rejectedStep_mainFrame.toSameManager rfl rfl rfl rfl trivial)
    (fun hpc => hs.enterDummyStep hcommand hpc)
    (fun _ _ _ => hs.core s.takeFiq_sameManager rfl rfl rfl rfl trivial) ?smc
    (fun regs fpregs faultAddress _ _ _ =>
      hs.core (s.abortStep_sameManager regs fpregs faultAddress) rfl rfl rfl
        rfl trivial)
  case terminate =>
    intro pc _
    cases pc with
    | guard =>
        simp only [System.terminateStep]
        split_ifs <;> exact hs.quiet ⟨rfl, rfl, rfl⟩ rfl
    | writeCmd => exact hs.quiet ⟨rfl, rfl, rfl⟩ rfl
    | sendIpi => exact hs.quiet ⟨rfl, rfl, rfl⟩ rfl
  case fiqStep =>
    intro pc _
    have hsame := s.fiqStep_sameManager cpu pc
    simp only [System.fiqStep] at hsame ⊢
    split at hsame <;> exact hs.core hsame rfl rfl rfl rfl trivial
  case setup =>
    intro pc _
    have hsame := s.setupStep_sameManager cpu pc
    simp only [System.setupStep] at hsame ⊢
    split at hsame <;> exact hs.core hsame rfl rfl rfl rfl trivial
  case loop =>
    intro pc _
    have hsame := (s.loopStep_mainFrame pc).toSameManager
    cases pc <;> simp only [System.loopStep] at hsame ⊢ <;>
      (try split_ifs at hsame ⊢) <;>
      exact hs.core hsame rfl rfl rfl rfl trivial
  case noop =>
    intro pc hpc
    have hpending := hcommand.monitor
    rw [hpc] at hpending
    cases pc with
    | readAck => exact hs.core ⟨rfl, rfl, rfl, rfl⟩ rfl rfl rfl rfl trivial
    | writeAck ack =>
        exact hs.acknowledge (.loop .readSeq) hpending.1 trivial rfl (by rintro _ ⟨⟩)
  case accepted =>
    intro pc _
    have hsame := (s.acceptedStep_mainFrame pc).toSameManager
    cases pc <;> exact hs.core hsame rfl rfl rfl rfl trivial
  case smc =>
    intro c _
    have hframe := System.smcStep_frame cpu s c
    refine hs.core hframe.toSameManager hframe.cmdResp
      (by rw [hframe.monitorLog]) (by rw [hframe.monitorLog])
      (by rw [hframe.monitorLog]) ?_
    rcases System.smcStep_monitor cpu s c with hmonitor | hmonitor <;>
      rw [hmonitor] <;> trivial

theorem answerInv_of_reachable {allowed : System → Action → Prop}
    (h : Reachable (System.step cpu) System.Initial allowed s) :
    AnswerInv s :=
  h.invariant (fun _ hs => .initial hs) fun _ _ _ hreach hs _ ht =>
    hs.step (stateInv_of_reachable hreach) (commandInv_of_reachable hreach)
      (paramInv_of_reachable hreach) ht

end Answers

/-! ## Results -/

/-- Errors that `startPayloadAt` derives from an answer. -/
def ErrorCode.OfAnswer (e : ErrorCode) : Prop :=
  e = .unknownError ∨ ∃ resp : Response, resp.rejection = some e

/-- The command of the latest call has been answered with a response. -/
structure System.Rejected (s : System) (resp : Response) : Prop where
  settled : s.mailbox.Settled
  issued : s.managerLog.issued.length = s.managerLog.issuedAtCall + 1
  verdict : s.monitorLog.outcomes.getLast? = some (.verdict resp)

structure ResultInv (s : System) : Prop where
  result : ∀ e, s.manager.result = some (some e) → e.OfAnswer →
    ∃ resp, resp.rejection = some e ∧ s.Rejected resp

section Results

variable {cpu : DomainIndex} {s t : System} {a : Action}

/-- An error that is one of the answers is returned from the response. -/
theorem System.Return.ofAnswer {e : ErrorCode}
    (h : s.Return (some e)) (hcall : CallInv cpu s) (he : e.OfAnswer) :
    s.manager.pc = .poll .readResp ∧
      ((∃ resp : Response, resp.rejection = some e ∧
          s.ipc.executorToManager.cmdResp = resp.code) ∨
        ∀ resp : Response, s.ipc.executorToManager.cmdResp ≠ resp.code) := by
  have hother : e ∉ [ErrorCode.badDomainState, .hwResourceUnavailable,
      .payloadCrashedDuringStartup, .payloadStartTimedOut,
      .monitorStartTimedOut, .configurationFileError, .devMemAccessFailed,
      .mmapFailed, .programTooLarge] := by
    rcases he with rfl | ⟨resp, hresp⟩
    · decide
    · cases resp <;> cases hresp <;> decide
  cases h with
  | rejected hpc hresp hrejection =>
      exact ⟨hpc, .inl ⟨_, hrejection, hresp⟩⟩
  | unknownResp hpc hresp => exact ⟨hpc, .inr hresp⟩
  | startup hpc herror => rcases herror with rfl | rfl <;> simp at hother
  | loadRefused hpc herror =>
      rcases hcall.load_errors hpc (.inl herror) with rfl | rfl <;>
        simp at hother
  | loadFailed hpc herror =>
      rcases hcall.load_errors hpc (.inr herror) with rfl | rfl <;>
        simp at hother
  | failed hfail =>
      have hmem := mem_failures hfail
      simp_all
  | _ => simp at hother

theorem ResultInv.initial (h : s.Initial) : ResultInv s :=
  ⟨by simp [h.result]⟩

/-- The polling loop returns the answer to its own command. -/
theorem rejected_of_return {e : ErrorCode}
    (hcommand : CommandInv s) (hparam : ParamInv s) (hanswer : AnswerInv s)
    (hcall : CallInv cpu s) (h : s.Return (some e)) (he : e.OfAnswer) :
    ∃ resp, resp.rejection = some e ∧ s.Rejected resp := by
  obtain ⟨hpc, hcases⟩ := h.ofAnswer hcall he
  have hmanager := hcommand.manager
  rw [hpc] at hmanager
  have hsettled : s.mailbox.Settled := hmanager.2
  obtain ⟨resp, hlast⟩ := hparam.answered _ hpc hsettled
  have hcode := hanswer.response hsettled resp hlast
  have hok := hcall.pc
  rw [hpc] at hok
  obtain ⟨c, args, -, -, -, hissued⟩ := hok
  rcases hcases with ⟨resp', hrejection, hresp⟩ | hresp
  · have hsame := Response.code_injective (hresp.symm.trans hcode)
    rw [hsame] at hrejection
    exact ⟨resp, hrejection, hsettled, hissued, hlast⟩
  · exact absurd hcode (hresp resp)

/-- An answered command stays answered until the next one. -/
theorem System.Rejected.core {resp : Response}
    (hs : s.Rejected resp) (hstate : StateInv s) (hcommand : CommandInv s)
    (hmanagerLog : t.managerLog = s.managerLog)
    (h : s.step cpu a = some t) : t.Rejected resp := by
  have hmailbox := hcommand.mailbox_eq_of_settled hstate h hs.settled
    (by rw [hmanagerLog])
  have houtcomes : t.monitorLog.outcomes = s.monitorLog.outcomes :=
    congrArg Mailbox.State.answers hmailbox
  exact
    { settled := by
        rw [hmailbox]
        exact hs.settled
      issued := by
        rw [hmanagerLog]
        exact hs.issued
      verdict := by
        rw [houtcomes]
        exact hs.verdict }

theorem ResultInv.step
    (hs : ResultInv s) (hstate : StateInv s) (hcommand : CommandInv s)
    (hparam : ParamInv s) (hanswer : AnswerInv s) (hcall : CallInv cpu s)
    (h : s.step cpu a = some t) : ResultInv t := by
  refine ⟨?_⟩
  intro e he hof
  by_cases hnone : s.manager.result = none
  · obtain ⟨hreturn, rfl⟩ := System.step_return h hnone he
    obtain ⟨resp, hresp, hrejected⟩ :=
      rejected_of_return hcommand hparam hanswer hcall hreturn hof
    exact ⟨resp, hresp, hrejected.core hstate hcommand rfl h⟩
  · have hsame := hcall.sameManager_of_returned h hnone (by simp [he])
    rw [hsame.manager] at he
    obtain ⟨resp, hresp, hrejected⟩ := hs.result e he hof
    exact ⟨resp, hresp, hrejected.core hstate hcommand hsame.managerLog h⟩

theorem resultInv_of_reachable {allowed : System → Action → Prop}
    (h : Reachable (System.step cpu) System.Initial allowed s) :
    ResultInv s :=
  h.invariant (fun _ hs => .initial hs) fun _ _ _ hreach hs _ ht =>
    hs.step (stateInv_of_reachable hreach) (commandInv_of_reachable hreach)
      (paramInv_of_reachable hreach) (answerInv_of_reachable hreach)
      (callInv_of_reachable hreach) ht

/-- A rejection is the verdict on the command of the very call that returns it,
and that command has not been entered. -/
theorem rejection_truthful
    (h : Reachable (System.step cpu) System.Initial anyStep s) :
    s.manager.result ≠ some (some .unknownError) ∧
    ∀ resp e, resp.rejection = some e → s.manager.result = some (some e) →
      s.managerLog.issued.length = s.managerLog.issuedAtCall + 1 ∧
      (s.managerLog.issuedAtCall, resp) ∈ s.monitorLog.validations ∧
      s.monitorLog.outcomes[s.managerLog.issuedAtCall]? =
        some (.verdict resp) ∧
      (∀ e ∈ s.monitorLog.entered, e.index ≠ s.managerLog.issuedAtCall) ∧
      s.managerLog.issuedAtCall ∉ s.monitorLog.dummyEntered := by
  have hresult := resultInv_of_reachable h
  have hanswer := answerInv_of_reachable h
  have hcommand := commandInv_of_reachable h
  constructor
  · intro hunknown
    obtain ⟨resp, hresp, -⟩ := hresult.result _ hunknown (.inl rfl)
    cases resp <;> cases hresp
  · intro resp e hresp he
    obtain ⟨resp', hresp', hrejected⟩ := hresult.result e he (.inr ⟨resp, hresp⟩)
    have hsame : resp' = resp := by
      cases resp <;> cases hresp <;> cases resp' <;> first | rfl | cases hresp'
    subst hsame
    have hanswers : s.monitorLog.outcomes.length =
        s.managerLog.issuedAtCall + 1 := by
      have hlen : s.managerLog.issued.length = s.monitorLog.outcomes.length :=
        hrejected.settled
      rw [← hlen]
      exact hrejected.issued
    have hverdict : s.monitorLog.outcomes[s.managerLog.issuedAtCall]? =
        some (.verdict resp') := by
      rw [← hrejected.verdict, List.getLast?_eq_getElem?, hanswers,
        Nat.add_sub_cancel]
    obtain ⟨hmem, hentry⟩ := hanswer.validated _ _ hverdict
    refine ⟨hrejected.issued, hmem, hverdict, ?_, ?_⟩
    · intro entry hentered hindex
      have haccepted := hcommand.entered entry hentered
      rw [hindex, hverdict] at haccepted
      cases haccepted
      cases hresp
    · intro hdummy
      obtain ⟨args, hargs, hargsEntry⟩ := hanswer.dummy _ hdummy
      exact hentry args hargs hargsEntry

/-- An image without a header is rejected. -/
def rejectionSchedule : List Action :=
  startupSchedule ++ loadElfSchedule blankElf 0 ++ validationSchedule ++
    managerSteps 3

theorem rejection_truthful_blankElf :
    ∃ t, run (System.step .cpu1) System.powerOn rejectionSchedule = some t ∧
      t.manager.result = some (some .payloadImageMalformed) ∧
      (t.managerLog.issuedAtCall, Response.imageMalformed) ∈
        t.monitorLog.validations := by
  obtain ⟨t, hrun, hreach, hresult⟩ :=
    exists_reachable_of_run (System.step .cpu1) rejectionSchedule
      (fun t => t.manager.result = some (some .payloadImageMalformed))
      System.powerOn_initial (by decide +kernel)
  have htruthful := (rejection_truthful hreach).2 .imageMalformed _ rfl hresult
  exact ⟨t, hrun, hresult, htruthful.2.1⟩

end Results

end Bmboot
