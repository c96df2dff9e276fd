import Bmboot.System.Refusal
import Bmboot.System.Rejection
import Bmboot.System.Terminate

/-!
# Domains reported free

`ensureReadyToLoadPayload` succeeds on the published state alone, and a
rejection is returned on the acknowledgement alone.  The next load wants both.
It is accepted exactly if, besides, the killed command has been acknowledged in
the first case, and `monitor_ready` been published again in the second.
-/

namespace Bmboot

open StepSystem

/-! ## After a rejection -/

/-- Once a rejection has been acknowledged, and until the next command, the
published state is `starting_payload` or `monitor_ready`. -/
def RejectionInv (s : System) : Prop :=
  s.mailbox.Settled → ∀ resp : Response, resp ≠ .crcOk →
    s.monitorLog.outcomes.getLast? = some (.verdict resp) →
      s.ipc.executorToManager.state = DomainState.monitorReady.code ∨
        s.ipc.executorToManager.state = DomainState.startingPayload.code

section Rejection

variable {cpu : DomainIndex} {s t : System} {a : Action}

theorem RejectionInv.sameState
    (hs : RejectionInv s)
    (hword : t.ipc.executorToManager.state = s.ipc.executorToManager.state)
    (hmailbox : t.mailbox = s.mailbox) : RejectionInv t := by
  have houtcomes : t.monitorLog.outcomes = s.monitorLog.outcomes :=
    congrArg Mailbox.State.answers hmailbox
  intro hsettled resp hne hlast
  rw [hmailbox] at hsettled
  rw [houtcomes] at hlast
  rw [hword]
  exact hs hsettled resp hne hlast

theorem RejectionInv.of_pending (h : s.mailbox.Pending) : RejectionInv s :=
  fun hsettled => absurd h hsettled.not_pending

theorem RejectionInv.of_accepted
    (h : s.monitorLog.outcomes.getLast? = some (.verdict .crcOk)) :
    RejectionInv s := by
  intro _ resp hne hlast
  rw [h] at hlast
  cases hlast
  exact absurd rfl hne

theorem RejectionInv.startupStep
    (hs : RejectionInv s) (hstate : StateInv s) (hcommand : CommandInv s)
    {cntfrq : BitVec 32} {pc : StartupPc}
    (hpc : s.manager.pc = .startup cntfrq pc) :
    RejectionInv (s.startupStep cntfrq pc) := by
  have hfresh : s.monitor = .inReset → ∀ t : System,
      t.monitorLog = s.monitorLog → RejectionInv t := by
    intro hin t hlog _ resp _ hlast
    rw [hlog, (hcommand.fresh hin).2] at hlast
    cases hlast
  have hok := hstate.startup cntfrq pc hpc
  cases pc with
  | guard =>
      simp only [System.startupStep]
      split_ifs <;> exact hs.sameState rfl rfl
  | clearIpc | writeState => exact hfresh hok _ rfl
  | writeCntfrq => exact hfresh hok.1 _ rfl
  | bootCore =>
      simp only [System.startupStep]
      split <;> exact hs.sameState rfl rfl

theorem RejectionInv.sameExecutor
    (hs : RejectionInv s) (hstate : StateInv s) (hcommand : CommandInv s)
    (h : s.step cpu a = some t) (hsame : System.SameExecutor s t) :
    RejectionInv t := by
  rcases simulates_mailbox s a t ⟨hstate, hcommand⟩ h with heq | ⟨m, hm⟩
  · exact hs.sameState (by rw [hsame.inbox]) heq
  · cases m with
    | issue args =>
        simp only [Mailbox.step] at hm
        split at hm
        next hsettled =>
          refine .of_pending ?_
          rw [← Option.some.inj hm]
          exact Mailbox.pending_issue args hsettled
        · cases hm
    | answer outcome =>
        simp only [Mailbox.step] at hm
        split at hm
        next =>
          have hanswers := congrArg Mailbox.State.answers (Option.some.inj hm)
          have houtcomes : t.monitorLog.outcomes = s.monitorLog.outcomes := by
            rw [hsame.monitorLog]
          exact absurd (hanswers.trans houtcomes) (by simp [System.mailbox])
        · cases hm

theorem RejectionInv.commandStep
    (hstate : StateInv s) (hcommand : CommandInv s) {pc : CommandPc}
    (hpc : s.monitor = .command pc) : RejectionInv (s.commandStep pc) := by
  have hword := hstate.state
  have hok := hcommand.monitor
  rw [hpc] at hword hok
  have hpending : ∀ {t : System}, s.mailbox.Pending →
      t.mailbox = s.mailbox → RejectionInv t := by
    intro t hpending hmailbox
    refine .of_pending ?_
    rw [hmailbox]
    exact hpending
  cases pc with
  | writeAck resp ack => exact fun _ _ _ _ => .inr hword
  | checkEntryAddress =>
      simp only [System.commandStep]
      split_ifs <;> exact hpending hok rfl
  | validate call pc =>
      simp only [System.commandStep]
      split <;> exact hpending hok rfl
  | _ => exact hpending hok rfl

theorem RejectionInv.step
    (hs : RejectionInv s) (hstate : StateInv s) (hkill : KillInv cpu s)
    (hcommand : CommandInv s) (h : s.step cpu a = some t) :
    RejectionInv t := by
  have hok := hcommand.monitor
  refine System.step_cases_core (P := fun _ t => RejectionInv t) h
    (fun _ _ hpc => hs.startupStep hstate hcommand hpc) ?terminate
    (fun _ _ ht hsame => hs.sameExecutor hstate hcommand ht hsame) ?fiqStep
    (fun _ => hs.sameState rfl rfl) ?setup (fun _ _ _ _ _ => .inl rfl) ?loop
    ?noop (fun _ hpc => .commandStep hstate hcommand hpc) ?accepted
    (fun _ _ _ _ _ => .inl rfl) ?enterDummy
    (fun _ _ _ => hs.sameState rfl rfl) ?smc ?abort
  case terminate =>
    intro pc _
    cases pc <;> simp only [System.terminateStep] <;> (try split_ifs) <;>
      exact hs.sameState rfl rfl
  case fiqStep =>
    intro pc hpc
    have hkillOk := hkill.fiq pc hpc
    simp only [System.fiqStep]
    split
    · exact hs.sameState rfl rfl
    · exact hs.sameState rfl rfl
    next irq iar hstep =>
      obtain ⟨hboot, -⟩ := hkillOk.step_ret hkill.onlyKill hstep
      cases hboot
  case setup =>
    intro pc _
    simp only [System.setupStep]
    split <;> exact hs.sameState rfl rfl
  case loop =>
    intro pc _
    cases pc <;> simp only [System.loopStep] <;> (try split_ifs) <;>
      exact hs.sameState rfl rfl
  case noop =>
    intro pc _
    cases pc with
    | readAck => exact hs.sameState rfl rfl
    | writeAck ack =>
        intro _ resp _ hlast
        simp [System.noopStep, System.acknowledge, System.gotoMonitor] at hlast
  case accepted =>
    intro pc _
    cases pc <;> exact hs.sameState rfl rfl
  case enterDummy =>
    intro hpc
    rw [hpc] at hok
    exact .of_pending hok
  case smc =>
    intro c hpc
    rw [hpc] at hok
    refine .of_accepted ?_
    rw [(System.smcStep_frame cpu s c).monitorLog]
    exact hok
  case abort =>
    intro regs fpregs faultAddress call pc hpc
    rw [hpc] at hok
    exact .of_pending hok

theorem rejectionInv_of_reachable {allowed : System → Action → Prop}
    (h : Reachable (System.step cpu) System.Initial allowed s) :
    RejectionInv s := by
  induction h with
  | init hs =>
      intro _ resp _ hlast
      rw [hs.outcomes] at hlast
      cases hlast
  | step hreach _ ht ih =>
      exact ih.step (stateInv_of_reachable hreach)
        (killInv_of_reachable hreach) (commandInv_of_reachable hreach) ht

end Rejection

/-! ## Reports -/

/-- The latest call has reported the domain as free: `ensureReadyToLoadPayload`
has succeeded, or a start has been rejected. -/
def System.ReportsFree (s : System) : Prop :=
  (∃ cntfrq, s.manager.call = some (.ensureReadyToLoadPayload cntfrq) ∧
    s.manager.result = some none) ∨
  ∃ (resp : Response) (e : ErrorCode),
    resp.rejection = some e ∧ s.manager.result = some (some e)

/-- A fitting image that is loaded next is not refused, whatever the core does
before and during the load. -/
def System.AcceptsLoad (cpu : DomainIndex) (s : System) : Prop :=
  ∀ binary crc argument before after t,
    binary.length ≤ payloadAreaSize → (∀ a ∈ before, a.OfCore) →
      (∀ c, .call c ∉ after) →
        run (System.step cpu) s
          (before ++ .call (.loadAndStartPayload binary crc argument) :: after) =
            some t →
          t.manager.result ≠ some (some .badDomainState)

/-- No command is unanswered, and a rejection has been followed by
`monitor_ready`. -/
structure System.ReadyAgain (s : System) : Prop where
  settled : s.mailbox.Settled
  published : s.ipc.executorToManager.state ≠ DomainState.startingPayload.code

section Reports

variable {cpu : DomainIndex} {s t : System} {a : Action}

/-- What is known when the domain has just been reported free. -/
theorem reported_cases
    (h : Reachable (System.step cpu) System.Initial anyStep s)
    (ht : s.step cpu a = some t) (hnone : s.manager.result = none)
    (hfree : t.ReportsFree) :
    t.manager.pc = .idle ∧ (t.getState = .monitorReady ∨
      t.mailbox.Settled ∧ t.getState = .startingPayload) := by
  have hreach : Reachable (System.step cpu) System.Initial anyStep t :=
    .step h trivial ht
  have hcall := (callInv_of_reachable h).pc
  rcases hfree with ⟨cntfrq, hc, hr⟩ | ⟨resp, e, hresp, hr⟩
  · obtain ⟨hreturn, rfl⟩ := System.step_return ht hnone hr
    refine ⟨rfl, .inl ?_⟩
    cases hreturn with
    | ensureReady _ hready => exact hready
    | awaitReady _ hready => exact hready
    | started hpc _ =>
        rw [hpc] at hcall
        obtain ⟨c, args, hc', hargs, -⟩ := hcall
        have hsame : some c = some (.ensureReadyToLoadPayload cntfrq) :=
          hc'.symm.trans hc
        cases hsame
        cases hargs
  · obtain ⟨resp', hresp', hrejected⟩ :=
      (resultInv_of_reachable hreach).result e hr (.inr ⟨resp, hresp⟩)
    have hne : resp' ≠ .crcOk := by
      rintro rfl
      cases hresp'
    have hstate := stateInv_of_reachable hreach
    have hreset : t.monitor ≠ .inReset := by
      intro hin
      have hverdict := hrejected.verdict
      rw [((commandInv_of_reachable hreach).fresh hin).2] at hverdict
      cases hverdict
    have hgeneral := hstate.started hreset
    refine ⟨(callInv_of_reachable hreach).idle (by simp [hr]), ?_⟩
    rcases rejectionInv_of_reachable hreach hrejected.settled resp' hne
      hrejected.verdict with hready | hstarting
    · exact .inl (System.getState_of_code hgeneral hready)
    · exact .inr ⟨hrejected.settled,
        System.getState_of_code hgeneral hstarting⟩

/-! ## A load that is not refused -/

/-- Before each guard the domain is free, or the test is already decided. -/
def ManagerPc.GoesOn (s : System) : ManagerPc → Prop
  | .load _ _ | .start _ .checkState | .start _ .readAck => s.Free
  | .start _ (.readSeq ack) => ack = s.cmdSeq
  | .start _ _ | .poll _ | .idle => True
  | .startup _ _ | .ensure _ | .terminate _ | .await => False

theorem goesOn_loadStep
    (hs : s.Free) (load : Load) (pc : LoadPc) :
    (s.loadStep load pc).manager.pc.GoesOn (s.loadStep load pc) := by
  match pc with
  | .checkState =>
      simp only [System.loadStep]
      split_ifs
      · trivial
      · exact hs.congr rfl rfl rfl
  | .map =>
      simp only [System.loadStep]
      split
      · trivial
      · exact hs.congr rfl rfl rfl
  | .store ((address, b) :: rest) => exact hs.congr rfl rfl rfl
  | .store [] =>
      simp only [System.loadStep]
      split
      · trivial
      · exact hs.congr rfl rfl rfl

theorem goesOn_startStep {args : StartArgs} {pc : StartPc}
    (hs : (ManagerPc.start args pc).GoesOn s) (hcommand : CommandInv s) :
    (s.startStep args pc).manager.pc.GoesOn (s.startStep args pc) := by
  cases pc with
  | checkState =>
      simp only [System.startStep]
      split_ifs
      · trivial
      · exact System.Free.congr hs rfl rfl rfl
  | readAck => exact System.Free.cmdAck_eq hs hcommand
  | readSeq ack =>
      simp only [System.startStep]
      split_ifs <;> trivial
  | _ => trivial

theorem goesOn_step
    (hs : s.manager.pc.GoesOn s) (hstate : StateInv s) (hkill : KillInv cpu s)
    (hcommand : CommandInv s) (ha : ∀ c, a ≠ .call c)
    (h : s.step cpu a = some t) : t.manager.pc.GoesOn t := by
  have hnot : ∀ {pc : ManagerPc}, s.manager.pc = pc → pc.GoesOn s := by
    rintro pc rfl
    exact hs
  revert ha
  refine System.step_cases_manager
    (P := fun a t => (∀ c, a ≠ .call c) → t.manager.pc.GoesOn t) h
    (fun c _ ha => absurd rfl (ha c)) (fun _ _ hpc => (hnot hpc).elim)
    (fun _ hpc => (hnot hpc).elim)
    (fun load pc hpc _ => goesOn_loadStep (hnot hpc) load pc)
    (fun _ _ hpc _ => goesOn_startStep (hnot hpc) hcommand) ?poll
    (fun _ hpc => (hnot hpc).elim) (fun hpc => (hnot hpc).elim)
    (fun _ _ _ => trivial) (fun _ _ => trivial) (fun _ _ => trivial) ?core
  case poll =>
    intro pc _ _
    cases pc <;> simp only [System.pollStep] <;> (try split_ifs) <;> trivial
  case core =>
    intro a t ht _ hsame _
    have hfree : s.Free → t.Free := fun hfree =>
      hfree.step hstate hkill hcommand ht (by rw [hsame.managerLog])
        (by rw [hsame.outbox])
    rw [hsame.manager]
    cases hpc : s.manager.pc with
    | load load pc => exact hfree (hnot hpc)
    | start args pc =>
        have hok := hnot hpc
        cases pc with
        | checkState | readAck => exact hfree hok
        | readSeq ack =>
            simp only [ManagerPc.GoesOn, System.cmdSeq, hsame.outbox]
            exact hok
        | _ => trivial
    | poll | idle => trivial
    | startup | ensure | terminate | await => exact hnot hpc

/-- A load that goes on does not end with `bad_domain_state`. -/
theorem not_refused_step
    (hs : s.manager.pc.GoesOn s) (hstate : StateInv s) (hcall : CallInv cpu s)
    (hresult : s.manager.result ≠ some (some .badDomainState))
    (h : s.step cpu a = some t) :
    t.manager.result ≠ some (some .badDomainState) := by
  intro hr
  by_cases hnone : s.manager.result = none
  case neg =>
    have hsame := hcall.sameManager_of_returned h hnone (by simp [hr])
    rw [hsame.manager] at hr
    exact hresult hr
  have hpoint : ∀ {pc : ManagerPc}, s.manager.pc = pc → pc.GoesOn s := by
    rintro pc rfl
    exact hs
  obtain ⟨hreturn, -⟩ := System.step_return h hnone hr
  cases hreturn.of_badDomainState hcall with
  | startup hpc | ensure hpc | terminate hpc => exact hpoint hpc
  | loadNotReady hpc hready | startNotReady hpc hready =>
      exact hready (System.Free.getState (hpoint hpc) hstate)
  | startPending hpc hack => exact hack (hpoint hpc)

theorem not_refused_run
    (h : Reachable (System.step cpu) System.Initial anyStep s)
    (hs : s.manager.pc.GoesOn s)
    (hresult : s.manager.result ≠ some (some .badDomainState))
    {as : List Action} (has : ∀ c, .call c ∉ as)
    (hrun : run (System.step cpu) s as = some t) :
    t.manager.result ≠ some (some .badDomainState) := by
  induction as generalizing s with
  | nil =>
      cases hrun
      exact hresult
  | cons a as ih =>
      obtain ⟨u, hu, hrest⟩ := run_cons_eq_some.mp hrun
      have ha : ∀ c, a ≠ .call c := by
        rintro c rfl
        exact has c List.mem_cons_self
      refine ih (.step h trivial hu) ?_ ?_ ?_ hrest
      · exact goesOn_step hs (stateInv_of_reachable h) (killInv_of_reachable h)
          (commandInv_of_reachable h) ha hu
      · exact not_refused_step hs (stateInv_of_reachable h)
          (callInv_of_reachable h) hresult hu
      · intro c hmem
        exact has c (List.mem_cons_of_mem a hmem)

/-- A free domain stays free while the manager does nothing. -/
theorem free_run
    (h : Reachable (System.step cpu) System.Initial anyStep s) (hs : s.Free)
    {as : List Action} (has : ∀ a ∈ as, a.OfCore)
    (hrun : run (System.step cpu) s as = some t) : t.Free := by
  induction as generalizing s with
  | nil =>
      cases hrun
      exact hs
  | cons a as ih =>
      obtain ⟨u, hu, hrest⟩ := run_cons_eq_some.mp hrun
      have hsame : System.SameManager s u := by
        have hcore := has a List.mem_cons_self
        revert hcore
        exact System.step_cases_manager
          (P := fun a u => a.OfCore → System.SameManager s u) hu
          (fun _ _ => nofun) (fun _ _ _ => nofun) (fun _ _ => nofun)
          (fun _ _ _ => nofun) (fun _ _ _ => nofun) (fun _ _ => nofun)
          (fun _ _ => nofun) (fun _ => nofun) (fun _ _ => nofun)
          (fun _ => nofun) (fun _ => nofun) (fun _ _ _ _ hsame _ => hsame)
      refine ih (.step h trivial hu) ?_ ?_ hrest
      · exact hs.step (stateInv_of_reachable h) (killInv_of_reachable h)
          (commandInv_of_reachable h) hu (by rw [hsame.managerLog])
          (by rw [hsame.outbox])
      · intro b hb
        exact has b (List.mem_cons_of_mem a hb)

/-- A free domain accepts the next load. -/
theorem acceptsLoad_of_free
    (h : Reachable (System.step cpu) System.Initial anyStep s) (hs : s.Free) :
    s.AcceptsLoad cpu := by
  intro binary crc argument before after t _ hbefore hafter hrun
  rw [run_append] at hrun
  obtain ⟨u, hu, hrest⟩ := Option.bind_eq_some_iff.mp hrun
  obtain ⟨v, hv, hload⟩ := run_cons_eq_some.mp hrest
  have hreach : Reachable (System.step cpu) System.Initial anyStep u :=
    h.run hu
  have hfree : u.Free := free_run h hs hbefore hu
  have hbegin : v =
      u.beginCall cpu (.loadAndStartPayload binary crc argument) := by
    simp only [System.step, System.callStep] at hv
    split at hv
    · exact (Option.some.inj hv).symm
    · cases hv
  subst hbegin
  refine not_refused_run (.step hreach trivial hv) ?_ (by rintro ⟨⟩) hafter hload
  exact hfree.congr rfl rfl rfl

/-- A load of one byte, with the core standing still. -/
theorem not_acceptsLoad_of_run {n : ℕ}
    (hpc : s.manager.pc = .idle)
    (hrun : ∃ t, run (System.step cpu)
        (s.beginCall cpu (.loadAndStartPayload [0] 0 0)) (managerSteps n) =
          some t ∧ t.manager.result = some (some .badDomainState)) :
    ¬s.AcceptsLoad cpu := by
  intro haccepts
  obtain ⟨t, ht, hr⟩ := hrun
  refine haccepts [0] 0 0 [] (managerSteps n) t (by decide) nofun ?_ ?_ hr
  · intro c hc
    cases (List.mem_replicate.mp hc).2
  · refine run_cons_eq_some.mpr ⟨_, ?_, ht⟩
    simp only [System.step, System.callStep, hpc]

theorem not_acceptsLoad_of_not_ready
    (hpc : s.manager.pc = .idle) (hready : s.getState ≠ .monitorReady) :
    ¬s.AcceptsLoad cpu := by
  refine not_acceptsLoad_of_run (n := 1) hpc ⟨_, rfl, ?_⟩
  exact congrArg (fun s : System => s.manager.result) (if_pos hready)

/-- After `n` steps the manager is at `pc`, and the block is still as in `s`. -/
def System.ManagerAt (cpu : DomainIndex) (s t : System) (n : ℕ)
    (pc : ManagerPc) : Prop :=
  ∃ u, run (System.step cpu) t (managerSteps n) = some u ∧
    u.manager.pc = pc ∧ u.ipc = s.ipc ∧
    u.manager.generalState = s.manager.generalState

theorem System.ManagerAt.next {n : ℕ} {pc pc' : ManagerPc}
    (h : System.ManagerAt cpu s t n pc)
    (hstep : ∀ u : System, u.manager.pc = pc → u.getState = s.getState →
      u.ipc = s.ipc → ∃ v, u.managerStep = some v ∧ v.manager.pc = pc' ∧
        v.ipc = u.ipc ∧ v.manager.generalState = u.manager.generalState) :
    System.ManagerAt cpu s t (n + 1) pc' := by
  obtain ⟨u, hrun, hpc, hipc, hgeneral⟩ := h
  have hstate : u.getState = s.getState := by
    rw [System.getState, System.getState, hipc, hgeneral]
  obtain ⟨v, hv, hpc', hipc', hgeneral'⟩ := hstep u hpc hstate hipc
  refine ⟨v, ?_, hpc', hipc'.trans hipc, hgeneral'.trans hgeneral⟩
  rw [managerSteps, List.replicate_succ', run_append]
  exact Option.bind_eq_some_iff.mpr
    ⟨u, hrun, run_cons_eq_some.mpr ⟨v, hv, rfl⟩⟩

theorem not_acceptsLoad_of_pending
    (hpc : s.manager.pc = .idle) (hready : s.getState = .monitorReady)
    (hack : s.cmdAck ≠ s.cmdSeq) : ¬s.AcceptsLoad cpu := by
  let load := flatLoad cpu [0] 0 0
  let t := s.beginCall cpu (.loadAndStartPayload [0] 0 0)
  have hcheck : System.ManagerAt cpu s t 0 (.load load .checkState) :=
    ⟨t, rfl, rfl, rfl, rfl⟩
  have hmap : System.ManagerAt cpu s t 1 (.load load .map) := by
    refine hcheck.next fun u hu hstate _ =>
      ⟨u.gotoManager (.load load .map), ?_, rfl, rfl, rfl⟩
    simp only [System.managerStep, hu, System.loadStep, hstate, hready,
      ne_eq, not_true_eq_false, if_false]
  have hstore : System.ManagerAt cpu s t 2 (.load load (.store load.stores)) := by
    refine hmap.next fun u hu _ _ =>
      ⟨u.gotoManager (.load load (.store load.stores)), ?_, rfl, rfl, rfl⟩
    simp only [System.managerStep, hu]
    rfl
  have hstored : System.ManagerAt cpu s t 3 (.load load (.store [])) := by
    refine hstore.next fun u hu _ _ =>
      ⟨u.loadStep load (.store load.stores), ?_, rfl, rfl, rfl⟩
    simp only [System.managerStep, hu]
  have hstart : System.ManagerAt cpu s t 4 (.start load.args .checkState) := by
    refine hstored.next fun u hu _ _ =>
      ⟨u.gotoManager (.start load.args .checkState), ?_, rfl, rfl, rfl⟩
    simp only [System.managerStep, hu]
    rfl
  have hreadAck : System.ManagerAt cpu s t 5 (.start load.args .readAck) := by
    refine hstart.next fun u hu hstate _ =>
      ⟨u.gotoManager (.start load.args .readAck), ?_, rfl, rfl, rfl⟩
    simp only [System.managerStep, hu, System.startStep, hstate, hready,
      ne_eq, not_true_eq_false, if_false]
  have hreadSeq : System.ManagerAt cpu s t 6
      (.start load.args (.readSeq s.cmdAck)) := by
    refine hreadAck.next fun u hu _ hipc =>
      ⟨u.gotoManager (.start load.args (.readSeq s.cmdAck)), ?_, rfl, rfl, rfl⟩
    simp only [System.managerStep, hu, System.startStep, hipc]
    rfl
  obtain ⟨u, hrun, hpc', hipc, -⟩ := hreadSeq
  have hack' : s.cmdAck ≠ u.ipc.managerToExecutor.cmdSeq := by
    rw [hipc]
    exact hack
  refine not_acceptsLoad_of_run (n := 7) hpc
    ⟨u.finish (some .badDomainState), ?_, rfl⟩
  have hlast : managerSteps 7 = managerSteps 6 ++ [.manager] := rfl
  rw [hlast, run_append]
  refine Option.bind_eq_some_iff.mpr
    ⟨u, hrun, run_cons_eq_some.mpr ⟨_, ?_, rfl⟩⟩
  simp only [System.step, System.managerStep, hpc', System.startStep, ne_eq,
    hack', not_false_eq_true, if_true]

/-! ## Main result -/

/-- With no kill request about, a domain that a step reports as free accepts the
next load. -/
def FreeAcceptsLoad (cpu : DomainIndex) (s t : System) : Prop :=
  s.manager.result = none → t.ReportsFree → t.KillDone → t.AcceptsLoad cpu

/-- One byte is loaded with a wrong checksum. -/
def oneByteSchedule : List Action :=
  startupSchedule ++ .call (.loadAndStartPayload [0] 0 0) ::
    managerSteps 16 ++ monitorSteps 16 ++ managerSteps 2

end Reports

end Bmboot
