import Bmboot.Lib.Mailbox
import Bmboot.System.KillIpi

/-!
# The command sequence

The manager numbers its commands with `cmd_seq`, and the monitor acknowledges
them with `cmd_ack`.  The two words are the counters of a mailbox that holds at
most one unanswered command, across restarts of the monitor at any point and
across any number of wraps.
-/

namespace Bmboot

open StepSystem

namespace System

/-- The commands issued and how they have been answered. -/
def mailbox (s : System) : Mailbox.State StartArgs Outcome :=
  ⟨s.managerLog.issued, s.monitorLog.outcomes⟩

def cmdSeq (s : System) : BitVec 32 := s.ipc.managerToExecutor.cmdSeq

def cmdAck (s : System) : BitVec 32 := s.ipc.executorToManager.cmdAck

end System

/-! ## What each side knows -/

/-- Behind the guard of `startPayloadAt` no command is pending. -/
def StartPc.CommandOk (s : System) : StartPc → Prop
  | .checkState | .readAck => True
  | .readSeq ack => ack = s.cmdSeq → s.mailbox.Settled
  | .writeSeq seq => s.mailbox.Settled ∧ seq = s.cmdSeq + 1
  | _ => s.mailbox.Settled

def PollPc.CommandOk (s : System) : PollPc → Prop
  | .readAck | .readState => True
  | .readSeq ack => ack = s.cmdSeq → s.mailbox.Settled
  | .readResp => s.mailbox.Settled

def ManagerPc.CommandOk (s : System) : ManagerPc → Prop
  | .startup _ .guard | .startup _ .clearIpc => True
  | .startup _ _ => s.managerLog.cleared = true
  | .start _ .checkState => True
  | .start _ pc => s.monitor ≠ .inReset ∧ pc.CommandOk s
  | .poll pc => s.monitor ≠ .inReset ∧ pc.CommandOk s
  | _ => True

/-- The monitor is past the test of the sequence numbers only while a command
is pending. -/
def MonitorPc.CommandOk (s : System) : MonitorPc → Prop
  | .inReset | .fiq _ | .boot | .setup _ | .publishReady => True
  | .loop .readSeq | .crashed => True
  | .loop (.readAck seq) => seq ≠ s.cmdAck → s.mailbox.Pending
  | .noop (.writeAck ack) | .command (.writeAck _ ack) =>
      s.mailbox.Pending ∧ ack = s.cmdAck + 1
  | .loop .readCmd | .noop .readAck | .command _ | .enterDummy | .el1 .dummy =>
      s.mailbox.Pending
  | .accepted _ =>
      s.monitorLog.outcomes.getLast? = some (.verdict .crcOk) ∧
        ∀ e ∈ s.monitorLog.entered,
          e.index + 1 < s.monitorLog.outcomes.length
  | .rejected =>
      ∃ resp, resp ≠ .crcOk ∧
        s.monitorLog.outcomes.getLast? = some (.verdict resp)
  | .el1 .payload => s.monitorLog.outcomes.getLast? = some (.verdict .crcOk)

structure CommandInv (s : System) : Prop where
  alternates : s.mailbox.Alternates
  counts : s.managerLog.cleared = true →
    Mailbox.Counts s.cmdSeq s.cmdAck s.mailbox
  cleared : s.monitor ≠ .inReset → s.managerLog.cleared = true
  fresh : s.monitor = .inReset →
    s.managerLog.issued = [] ∧ s.monitorLog.outcomes = []
  manager : s.manager.pc.CommandOk s
  monitor : s.monitor.CommandOk s
  entered : ∀ e ∈ s.monitorLog.entered,
    s.monitorLog.outcomes[e.index]? = some (.verdict .crcOk)
  once : (s.monitorLog.entered.map Entry.index).Nodup

section Stability

variable {s t : System}

theorem ManagerPc.CommandOk.mono {pc : ManagerPc}
    (h : pc.CommandOk s) (hreset : s.monitor ≠ .inReset → t.monitor ≠ .inReset)
    (hcleared : t.managerLog.cleared = s.managerLog.cleared)
    (hseq : t.cmdSeq = s.cmdSeq)
    (hsettled : s.mailbox.Settled → t.mailbox.Settled) :
    pc.CommandOk t := by
  cases pc with
  | startup cntfrq pc =>
      cases pc with
      | guard | clearIpc => trivial
      | writeState | writeCntfrq | bootCore => exact hcleared.trans h
  | start args pc =>
      cases pc with
      | checkState => trivial
      | readAck => exact ⟨hreset h.1, trivial⟩
      | readSeq ack =>
          refine ⟨hreset h.1, ?_⟩
          intro hack
          exact hsettled (h.2 (hack.trans hseq))
      | writeSeq seq =>
          refine ⟨hreset h.1, hsettled h.2.1, ?_⟩
          rw [hseq]
          exact h.2.2
      | _ => exact ⟨hreset h.1, hsettled h.2⟩
  | poll pc =>
      cases pc with
      | readAck | readState => exact ⟨hreset h.1, trivial⟩
      | readSeq ack =>
          refine ⟨hreset h.1, ?_⟩
          intro hack
          exact hsettled (h.2 (hack.trans hseq))
      | readResp => exact ⟨hreset h.1, hsettled h.2⟩
  | _ => trivial

theorem MonitorPc.CommandOk.mono {pc : MonitorPc}
    (h : pc.CommandOk s) (hack : t.cmdAck = s.cmdAck)
    (hpending : s.mailbox.Pending → t.mailbox.Pending)
    (houtcomes : t.monitorLog.outcomes = s.monitorLog.outcomes)
    (hentered : t.monitorLog.entered = s.monitorLog.entered) :
    pc.CommandOk t := by
  have hwrite : ∀ {ack : BitVec 32},
      s.mailbox.Pending ∧ ack = s.cmdAck + 1 →
        t.mailbox.Pending ∧ ack = t.cmdAck + 1 := by
    intro ack hwrite
    refine ⟨hpending hwrite.1, ?_⟩
    rw [hack]
    exact hwrite.2
  cases pc with
  | loop pc =>
      cases pc with
      | readSeq => trivial
      | readAck seq =>
          intro hne
          rw [hack] at hne
          exact hpending (h hne)
      | readCmd => exact hpending h
  | noop pc =>
      cases pc with
      | readAck => exact hpending h
      | writeAck ack => exact hwrite h
  | command pc =>
      cases pc with
      | writeAck resp ack => exact hwrite h
      | _ => exact hpending h
  | enterDummy => exact hpending h
  | el1 code =>
      cases code with
      | dummy => exact hpending h
      | payload =>
          simp only [CommandOk, houtcomes]
          exact h
  | accepted pc =>
      simp only [CommandOk, houtcomes, hentered]
      exact h
  | rejected =>
      simp only [CommandOk, houtcomes]
      exact h
  | _ => trivial

end Stability

section Invariant

variable {cpu : DomainIndex} {s t : System} {a : Action}

theorem CommandInv.initial (h : s.Initial) : CommandInv s where
  alternates := .inl (by simp [Mailbox.State.Settled, System.mailbox, h.issued,
    h.outcomes])
  counts := by simp [h.cleared]
  cleared := by simp [h.monitor]
  fresh := fun _ => ⟨h.issued, h.outcomes⟩
  manager := by simp [h.pc, ManagerPc.CommandOk]
  monitor := by simp [h.monitor, MonitorPc.CommandOk]
  entered := by simp [h.entered]
  once := by simp [h.entered]

/-- The sequence numbers agree exactly when no command is pending. -/
theorem CommandInv.settled_iff
    (hs : CommandInv s) (hreset : s.monitor ≠ .inReset) :
    s.cmdSeq = s.cmdAck ↔ s.mailbox.Settled :=
  (hs.counts (hs.cleared hreset)).eq_iff_settled (by decide) hs.alternates

/-! ## Steps of the manager -/

/-- Nothing that the sequence of commands depends on has changed. -/
structure System.SameCommands (s t : System) : Prop where
  monitor : t.monitor = s.monitor
  cmdSeq : t.cmdSeq = s.cmdSeq
  cmdAck : t.cmdAck = s.cmdAck
  cleared : t.managerLog.cleared = s.managerLog.cleared
  issued : t.managerLog.issued = s.managerLog.issued
  monitorLog : t.monitorLog = s.monitorLog

theorem System.SameCommands.mailbox (h : s.SameCommands t) :
    t.mailbox = s.mailbox := by
  simp only [System.mailbox, h.issued, h.monitorLog]

theorem CommandInv.quiet
    (hs : CommandInv s) (hsame : s.SameCommands t)
    (hpc : t.manager.pc.CommandOk t) : CommandInv t where
  alternates := by
    rw [hsame.mailbox]
    exact hs.alternates
  counts := by
    rw [hsame.cleared, hsame.cmdSeq, hsame.cmdAck, hsame.mailbox]
    exact hs.counts
  cleared := by
    rw [hsame.monitor, hsame.cleared]
    exact hs.cleared
  fresh := by
    rw [hsame.monitor, hsame.issued, hsame.monitorLog]
    exact hs.fresh
  manager := hpc
  monitor := by
    rw [hsame.monitor]
    refine hs.monitor.mono hsame.cmdAck ?_ ?_ ?_
    · rw [hsame.mailbox]
      exact id
    · rw [hsame.monitorLog]
    · rw [hsame.monitorLog]
  entered := by
    rw [hsame.monitorLog]
    exact hs.entered
  once := by
    rw [hsame.monitorLog]
    exact hs.once

theorem CommandInv.startupStep
    (hs : CommandInv s) (hstate : StateInv s) {cntfrq : BitVec 32}
    {pc : StartupPc} (hpc : s.manager.pc = .startup cntfrq pc) :
    CommandInv (s.startupStep cntfrq pc) := by
  have hok := hs.manager
  rw [hpc] at hok
  have hreset := hstate.startup cntfrq pc hpc
  cases pc with
  | guard =>
      simp only [System.startupStep]
      split_ifs <;> exact hs.quiet ⟨rfl, rfl, rfl, rfl, rfl, rfl⟩ trivial
  | clearIpc =>
      have hin : s.monitor = .inReset := hreset
      obtain ⟨hissued, houtcomes⟩ := hs.fresh hin
      have hcounts : Mailbox.Counts (0 : BitVec 32) 0 s.mailbox :=
        ⟨by simp [System.mailbox, hissued], by simp [System.mailbox, houtcomes]⟩
      exact
        { alternates := hs.alternates
          counts := fun _ => hcounts
          cleared := fun _ => rfl
          fresh := hs.fresh
          manager := rfl
          monitor := by
            simp [System.startupStep, System.gotoManager, hin,
              MonitorPc.CommandOk]
          entered := hs.entered
          once := hs.once }
  | writeState => exact hs.quiet ⟨rfl, rfl, rfl, rfl, rfl, rfl⟩ hok
  | writeCntfrq => exact hs.quiet ⟨rfl, rfl, rfl, rfl, rfl, rfl⟩ hok
  | bootCore =>
      have hin : s.monitor = .inReset := hreset.1
      simp only [System.startupStep, hin]
      exact
        { alternates := hs.alternates
          counts := hs.counts
          cleared := fun _ => hok
          fresh := (by rintro ⟨⟩)
          manager := trivial
          monitor := trivial
          entered := hs.entered
          once := hs.once }

theorem CommandInv.startStep
    (hs : CommandInv s) (hstate : StateInv s) {args : StartArgs}
    {pc : StartPc} (hpc : s.manager.pc = .start args pc) :
    CommandInv (s.startStep args pc) := by
  have hok := hs.manager
  rw [hpc] at hok
  cases pc with
  | checkState =>
      simp only [System.startStep]
      split_ifs with hready
      · exact hs.quiet ⟨rfl, rfl, rfl, rfl, rfl, rfl⟩ trivial
      · refine hs.quiet ⟨rfl, rfl, rfl, rfl, rfl, rfl⟩ ⟨?_, trivial⟩
        intro hin
        -- a domain in reset does not report `monitor_ready`
        have hgeneral : s.manager.generalState = .inReset := by
          rcases hstate.general with ⟨hgeneral, -⟩ | ⟨-, hne⟩
          · exact hgeneral
          · exact absurd hin hne
        simp [System.getState, Bmboot.getState, hgeneral] at hready
  | readAck =>
      refine hs.quiet ⟨rfl, rfl, rfl, rfl, rfl, rfl⟩ ⟨hok.1, ?_⟩
      intro hack
      exact (hs.settled_iff hok.1).mp hack.symm
  | readSeq ack =>
      simp only [System.startStep]
      split_ifs with hne
      · exact hs.quiet ⟨rfl, rfl, rfl, rfl, rfl, rfl⟩ trivial
      · exact hs.quiet ⟨rfl, rfl, rfl, rfl, rfl, rfl⟩
          ⟨hok.1, hok.2 (not_not.mp hne)⟩
  | incrementSeq =>
      exact hs.quiet ⟨rfl, rfl, rfl, rfl, rfl, rfl⟩ ⟨hok.1, hok.2, rfl⟩
  | writeSeq seq =>
      obtain ⟨hreset, hsettled, rfl⟩ := hok
      exact
        { alternates := .inr (Mailbox.pending_issue args hsettled)
          counts := fun hcleared => (hs.counts hcleared).issue args
          cleared := hs.cleared
          fresh := fun hin => absurd hin hreset
          manager := ⟨hreset, trivial⟩
          monitor := hs.monitor.mono rfl
            (fun hpending => absurd hpending hsettled.not_pending) rfl rfl
          entered := hs.entered
          once := hs.once }
  | _ => exact hs.quiet ⟨rfl, rfl, rfl, rfl, rfl, rfl⟩ hok

theorem CommandInv.pollStep
    (hs : CommandInv s) {pc : PollPc} (hpc : s.manager.pc = .poll pc) :
    CommandInv (s.pollStep pc) := by
  have hok := hs.manager
  rw [hpc] at hok
  cases pc with
  | readAck =>
      refine hs.quiet ⟨rfl, rfl, rfl, rfl, rfl, rfl⟩ ⟨hok.1, ?_⟩
      intro hack
      exact (hs.settled_iff hok.1).mp hack.symm
  | readSeq ack =>
      simp only [System.pollStep]
      split_ifs with heq
      · exact hs.quiet ⟨rfl, rfl, rfl, rfl, rfl, rfl⟩ ⟨hok.1, hok.2 heq⟩
      · exact hs.quiet ⟨rfl, rfl, rfl, rfl, rfl, rfl⟩ ⟨hok.1, trivial⟩
  | readResp =>
      simp only [System.pollStep]
      split_ifs
      · exact hs.quiet ⟨rfl, rfl, rfl, rfl, rfl, rfl⟩ ⟨hok.1, trivial⟩
      all_goals exact hs.quiet ⟨rfl, rfl, rfl, rfl, rfl, rfl⟩ trivial
  | readState =>
      simp only [System.pollStep]
      split_ifs
      · exact hs.quiet ⟨rfl, rfl, rfl, rfl, rfl, rfl⟩ trivial
      · exact hs.quiet ⟨rfl, rfl, rfl, rfl, rfl, rfl⟩ trivial
      · exact hs.quiet ⟨rfl, rfl, rfl, rfl, rfl, rfl⟩ ⟨hok.1, trivial⟩

theorem CommandInv.callStep
    (hs : CommandInv s) (c : Call) : CommandInv (s.beginCall cpu c) := by
  refine hs.quiet ⟨rfl, rfl, rfl, rfl, rfl, rfl⟩ ?_
  cases c <;> trivial

theorem CommandInv.ensureStep
    (hs : CommandInv s) (cntfrq : BitVec 32) :
    CommandInv (s.ensureStep cntfrq) := by
  simp only [System.ensureStep]
  split_ifs <;> exact hs.quiet ⟨rfl, rfl, rfl, rfl, rfl, rfl⟩ trivial

theorem CommandInv.loadStep
    (hs : CommandInv s) (load : Load) (pc : LoadPc) :
    CommandInv (s.loadStep load pc) := by
  match pc with
  | .checkState =>
      simp only [System.loadStep]
      split_ifs <;> exact hs.quiet ⟨rfl, rfl, rfl, rfl, rfl, rfl⟩ trivial
  | .map =>
      simp only [System.loadStep]
      split <;> exact hs.quiet ⟨rfl, rfl, rfl, rfl, rfl, rfl⟩ trivial
  | .store ((address, b) :: rest) =>
      exact hs.quiet ⟨rfl, rfl, rfl, rfl, rfl, rfl⟩ trivial
  | .store [] =>
      simp only [System.loadStep]
      split <;> exact hs.quiet ⟨rfl, rfl, rfl, rfl, rfl, rfl⟩ trivial

theorem CommandInv.terminateStep
    (hs : CommandInv s) (pc : TerminatePc) :
    CommandInv (s.terminateStep pc) := by
  cases pc with
  | guard =>
      simp only [System.terminateStep]
      split_ifs <;> exact hs.quiet ⟨rfl, rfl, rfl, rfl, rfl, rfl⟩ trivial
  | writeCmd => exact hs.quiet ⟨rfl, rfl, rfl, rfl, rfl, rfl⟩ trivial
  | sendIpi => exact hs.quiet ⟨rfl, rfl, rfl, rfl, rfl, rfl⟩ trivial

theorem CommandInv.awaitStep (hs : CommandInv s) : CommandInv s.awaitStep := by
  simp only [System.awaitStep]
  split_ifs
  · exact hs.quiet ⟨rfl, rfl, rfl, rfl, rfl, rfl⟩ trivial
  · exact hs

/-! ## Steps of the core -/

/-- The core leaves the acknowledgement, the answers and the entries alone. -/
theorem CommandInv.core
    (hs : CommandInv s) (hsame : System.SameManager s t)
    (hreset : s.monitor ≠ .inReset) (hreset' : t.monitor ≠ .inReset)
    (hack : t.cmdAck = s.cmdAck)
    (houtcomes : t.monitorLog.outcomes = s.monitorLog.outcomes)
    (hentered : t.monitorLog.entered = s.monitorLog.entered)
    (hpc : t.monitor.CommandOk t) : CommandInv t := by
  have hseq : t.cmdSeq = s.cmdSeq := by
    simp only [System.cmdSeq, hsame.outbox]
  have hmailbox : t.mailbox = s.mailbox := by
    simp only [System.mailbox, hsame.managerLog, houtcomes]
  exact
    { alternates := by
        rw [hmailbox]
        exact hs.alternates
      counts := by
        rw [hsame.managerLog, hseq, hack, hmailbox]
        exact hs.counts
      cleared := by
        intro _
        rw [hsame.managerLog]
        exact hs.cleared hreset
      fresh := fun hin => absurd hin hreset'
      manager := by
        rw [hsame.manager]
        refine hs.manager.mono (fun _ => hreset') ?_ hseq ?_
        · rw [hsame.managerLog]
        · rw [hmailbox]
          exact id
      monitor := hpc
      entered := by
        rw [houtcomes, hentered]
        exact hs.entered
      once := by
        rw [hentered]
        exact hs.once }

/-- The pending command is answered and acknowledged. -/
theorem CommandInv.acknowledge
    (hs : CommandInv s) {ack : BitVec 32} (outcome : Outcome) {pc : MonitorPc}
    (hreset : s.monitor ≠ .inReset)
    (hok : s.mailbox.Pending ∧ ack = s.cmdAck + 1)
    (hreset' : pc ≠ .inReset)
    (hpc : pc.CommandOk ((s.acknowledge ack outcome).gotoMonitor pc)) :
    CommandInv ((s.acknowledge ack outcome).gotoMonitor pc) := by
  obtain ⟨hpending, rfl⟩ := hok
  have hsettled : Mailbox.State.Settled
      ((s.acknowledge (s.cmdAck + 1) outcome).gotoMonitor pc).mailbox :=
    Mailbox.settled_answer outcome hpending
  exact
    { alternates := .inl hsettled
      counts := fun hcleared => (hs.counts hcleared).answer outcome
      cleared := fun _ => hs.cleared hreset
      fresh := fun hin => absurd hin hreset'
      manager := hs.manager.mono (fun _ => hreset') rfl rfl fun _ => hsettled
      monitor := hpc
      entered := by
        intro e he
        have hanswer := hs.entered e he
        have hlt : e.index < s.monitorLog.outcomes.length :=
          (List.getElem?_eq_some_iff.mp hanswer).1
        exact (List.getElem?_append_left hlt).trans hanswer
      once := hs.once }

theorem CommandInv.entry_lt
    (hs : CommandInv s) {e : Entry} (he : e ∈ s.monitorLog.entered) :
    e.index < s.monitorLog.outcomes.length :=
  (List.getElem?_eq_some_iff.mp (hs.entered e he)).1

theorem CommandInv.loopStep
    (hs : CommandInv s) {pc : LoopPc} (hpc : s.monitor = .loop pc) :
    CommandInv (s.loopStep pc) := by
  have hok := hs.monitor
  rw [hpc] at hok
  have hreset : s.monitor ≠ .inReset := by simp [hpc]
  have hsame := (s.loopStep_mainFrame pc).toSameManager
  cases pc with
  | readSeq =>
      refine hs.core hsame hreset (by rintro ⟨⟩) rfl rfl rfl ?_
      intro hne
      exact hs.alternates.resolve_left fun hsettled =>
        hne ((hs.settled_iff hreset).mpr hsettled)
  | readAck seq =>
      simp only [System.loopStep] at hsame ⊢
      split_ifs at hsame ⊢ with hne
      · exact hs.core hsame hreset (by rintro ⟨⟩) rfl rfl rfl (hok hne)
      · exact hs.core hsame hreset (by rintro ⟨⟩) rfl rfl rfl trivial
  | readCmd =>
      simp only [System.loopStep] at hsame ⊢
      split_ifs at hsame ⊢
      · exact hs.core hsame hreset (by rintro ⟨⟩) rfl rfl rfl hok
      · exact hs.core hsame hreset (by rintro ⟨⟩) rfl rfl rfl hok
      · exact hs.core hsame hreset (by rintro ⟨⟩) rfl rfl rfl trivial

theorem CommandInv.noopStep
    (hs : CommandInv s) {pc : NoopPc} (hpc : s.monitor = .noop pc) :
    CommandInv (s.noopStep pc) := by
  have hok := hs.monitor
  rw [hpc] at hok
  have hreset : s.monitor ≠ .inReset := by simp [hpc]
  cases pc with
  | readAck =>
      exact hs.core ⟨rfl, rfl, rfl, rfl⟩ hreset nofun rfl rfl rfl ⟨hok, rfl⟩
  | writeAck ack => exact hs.acknowledge .noop hreset hok nofun trivial

theorem CommandInv.commandStep
    (hs : CommandInv s) {pc : CommandPc} (hpc : s.monitor = .command pc) :
    CommandInv (s.commandStep pc) := by
  have hok := hs.monitor
  rw [hpc] at hok
  have hreset : s.monitor ≠ .inReset := by simp [hpc]
  have hsame := (s.commandStep_mainFrame pc).toSameManager
  cases pc with
  | checkEntryAddress =>
      simp only [System.commandStep] at hsame ⊢
      split_ifs at hsame ⊢
      · exact hs.core hsame hreset (by rintro ⟨⟩) rfl rfl rfl hok
      · exact hs.core hsame hreset (by rintro ⟨⟩) rfl rfl rfl hok
  | validate call pc =>
      simp only [System.commandStep] at hsame ⊢
      split at hsame
      · exact hs.core hsame hreset (by rintro ⟨⟩) rfl rfl rfl hok
      · exact hs.core hsame hreset (by rintro ⟨⟩) rfl rfl rfl hok
  | readAck resp =>
      exact hs.core hsame hreset (by rintro ⟨⟩) rfl rfl rfl ⟨hok, rfl⟩
  | writeAck resp ack =>
      simp only [System.commandStep]
      by_cases hresp : resp = .crcOk
      · rw [if_pos hresp, hresp]
        refine hs.acknowledge _ hreset hok (by rintro ⟨⟩) ⟨?_, ?_⟩
        · simp [System.acknowledge, System.gotoMonitor]
        · intro e he
          have hlt := hs.entry_lt he
          simpa [System.acknowledge, System.gotoMonitor] using hlt
      · rw [if_neg hresp]
        refine hs.acknowledge _ hreset hok (by rintro ⟨⟩) ⟨resp, hresp, ?_⟩
        simp [System.acknowledge, System.gotoMonitor]
  | _ => exact hs.core hsame hreset (by rintro ⟨⟩) rfl rfl rfl hok

theorem CommandInv.acceptedStep
    (hs : CommandInv s) {pc : AcceptedPc} (hpc : s.monitor = .accepted pc) :
    CommandInv (s.acceptedStep pc) := by
  have hok := hs.monitor
  rw [hpc] at hok
  have hreset : s.monitor ≠ .inReset := by simp [hpc]
  cases pc with
  | readEntryAddress =>
      exact hs.core ⟨rfl, rfl, rfl, rfl⟩ hreset nofun rfl rfl rfl hok
  | enterEl1 address =>
      obtain ⟨hlast, hold⟩ := hok
      rw [List.getLast?_eq_getElem?] at hlast
      exact
        { alternates := hs.alternates
          counts := hs.counts
          cleared := fun _ => hs.cleared hreset
          fresh := nofun
          manager := hs.manager.mono (fun _ => nofun) rfl rfl id
          monitor := by
            simp only [System.acceptedStep, System.enterEl1,
              MonitorPc.CommandOk]
            rw [List.getLast?_eq_getElem?]
            exact hlast
          entered := by
            intro e he
            rcases List.mem_append.mp he with he | he
            · exact hs.entered e he
            · rw [List.mem_singleton.mp he]
              exact hlast
          once := by
            simp only [System.acceptedStep, System.enterEl1, List.map_append,
              List.map_cons, List.map_nil]
            refine List.nodup_append.mpr ⟨hs.once, List.nodup_singleton _, ?_⟩
            intro i hi j hj
            obtain ⟨e, he, rfl⟩ := List.mem_map.mp hi
            rw [List.mem_singleton.mp hj]
            have hlt := hold e he
            omega }

theorem CommandInv.smcStep
    (hs : CommandInv s) (c : SmcCall) (hpc : s.monitor = .el1 .payload) :
    CommandInv (s.smcStep cpu c) := by
  have hok := hs.monitor
  rw [hpc] at hok
  have hframe := System.smcStep_frame cpu s c
  have hreset : s.monitor ≠ .inReset := by simp [hpc]
  have houtcomes : (s.smcStep cpu c).monitorLog.outcomes =
      s.monitorLog.outcomes := by rw [hframe.monitorLog]
  have hentered : (s.smcStep cpu c).monitorLog.entered =
      s.monitorLog.entered := by rw [hframe.monitorLog]
  have hmonitor := System.smcStep_monitor cpu s c
  refine hs.core hframe.toSameManager hreset ?_ hframe.cmdAck houtcomes
    hentered ?_
  · rcases hmonitor with hmonitor | hmonitor <;> simp [hmonitor]
  · rcases hmonitor with hmonitor | hmonitor
    · rw [hmonitor, MonitorPc.CommandOk, houtcomes]
      exact hok
    · rw [hmonitor]
      trivial

theorem CommandInv.step
    (hs : CommandInv s) (hstate : StateInv s)
    (h : s.step cpu a = some t) : CommandInv t := by
  refine System.step_cases (P := fun _ t => CommandInv t) h
    (fun c _ => hs.callStep c)
    (fun cntfrq pc hpc => hs.startupStep hstate hpc)
    (fun cntfrq _ => hs.ensureStep cntfrq)
    (fun load pc _ => hs.loadStep load pc)
    (fun args pc hpc => hs.startStep hstate hpc)
    (fun pc hpc => hs.pollStep hpc)
    (fun pc _ => hs.terminateStep pc)
    (fun _ => hs.awaitStep)
    (fun e _ => hs.quiet ⟨rfl, rfl, rfl, rfl, rfl, rfl⟩ trivial)
    (fun _ => hs.quiet ⟨rfl, rfl, rfl, rfl, rfl, rfl⟩ trivial)
    (fun _ => hs.quiet ⟨rfl, rfl, rfl, rfl, rfl, rfl⟩ trivial)
    ?fiqStep ?boot ?setup ?publishReady
    (fun pc hpc => hs.loopStep hpc) (fun pc hpc => hs.noopStep hpc)
    (fun pc hpc => hs.commandStep hpc) (fun pc hpc => hs.acceptedStep hpc)
    ?rejected ?enterDummy ?fiq (fun c hpc => hs.smcStep c hpc) ?abort
  case fiqStep =>
    intro pc hpc
    have hsame := s.fiqStep_sameManager cpu pc
    have hreset : s.monitor ≠ .inReset := by simp [hpc]
    simp only [System.fiqStep] at hsame ⊢
    split at hsame <;>
      exact hs.core hsame hreset (by rintro ⟨⟩) rfl rfl rfl trivial
  case boot =>
    intro hpc
    exact hs.core s.bootStep_sameManager (by simp [hpc]) (by rintro ⟨⟩)
      rfl rfl rfl
      trivial
  case setup =>
    intro pc hpc
    have hsame := s.setupStep_sameManager cpu pc
    have hreset : s.monitor ≠ .inReset := by simp [hpc]
    simp only [System.setupStep] at hsame ⊢
    split at hsame <;>
      exact hs.core hsame hreset (by rintro ⟨⟩) rfl rfl rfl trivial
  case publishReady =>
    intro hpc
    exact hs.core s.publishReadyStep_sameManager (by simp [hpc])
      (by rintro ⟨⟩) rfl rfl rfl trivial
  case rejected =>
    intro hpc
    exact hs.core s.rejectedStep_mainFrame.toSameManager (by simp [hpc])
      (by rintro ⟨⟩) rfl rfl rfl
      trivial
  case enterDummy =>
    intro hpc
    have hok := hs.monitor
    rw [hpc] at hok
    exact hs.core s.enterDummyStep_mainFrame.toSameManager (by simp [hpc])
      (by rintro ⟨⟩) rfl rfl rfl hok
  case fiq =>
    intro hreset _ _
    exact hs.core s.takeFiq_sameManager hreset (by rintro ⟨⟩) rfl rfl rfl trivial
  case abort =>
    intro regs fpregs faultAddress call pc hpc
    exact hs.core (s.abortStep_sameManager regs fpregs faultAddress)
      (by simp [hpc]) (by rintro ⟨⟩) rfl rfl rfl trivial

theorem commandInv_of_reachable {allowed : System → Action → Prop}
    (h : Reachable (System.step cpu) System.Initial allowed s) :
    CommandInv s :=
  h.invariant (fun _ hs => .initial hs)
    fun _ _ _ hreach hs _ ht => hs.step (stateInv_of_reachable hreach) ht

/-! ## The mailbox -/

/-- The two sides together are a mailbox: every step issues a command that may
be issued, answers the pending one, or does neither. -/
theorem simulates_mailbox :
    Simulates (System.step cpu) Mailbox.step System.mailbox
      fun s => StateInv s ∧ CommandInv s := by
  rintro s a t ⟨-, hs⟩ h
  have hanswer : ∀ outcome, s.mailbox.Pending →
      ∃ m, Mailbox.step s.mailbox m =
        some ⟨s.managerLog.issued, s.monitorLog.outcomes ++ [outcome]⟩ := by
    intro outcome hpending
    exact ⟨.answer outcome, if_pos hpending⟩
  have hquiet : ∀ t, System.SameExecutor s t →
      t.managerLog.issued = s.managerLog.issued →
        t.mailbox = s.mailbox ∨
          ∃ m, Mailbox.step s.mailbox m = some t.mailbox := by
    intro t hsame hissued
    left
    simp only [System.mailbox, hissued, hsame.monitorLog]
  refine System.step_cases
    (P := fun _ t => t.mailbox = s.mailbox ∨
      ∃ m, Mailbox.step s.mailbox m = some t.mailbox) h
    (fun c _ => .inl rfl) ?startup
    (fun cntfrq _ => hquiet _ (s.ensureStep_sameExecutor cntfrq)
      (s.ensureStep_issued cntfrq))
    (fun load pc _ => hquiet _ (s.loadStep_sameExecutor load pc)
      (s.loadStep_issued load pc))
    ?start
    (fun pc _ => hquiet _ (s.pollStep_sameExecutor pc) (s.pollStep_issued pc))
    ?terminate
    (fun hpc => hquiet _ (s.awaitStep_sameExecutor hpc) s.awaitStep_issued)
    (fun _ _ => .inl rfl) (fun _ => .inl rfl) (fun _ => .inl rfl)
    ?fiqStep (fun _ => .inl rfl) ?setup (fun _ => .inl rfl) ?loop ?noop
    ?command ?accepted (fun _ => .inl rfl) (fun _ => .inl rfl)
    (fun _ _ _ => .inl rfl) ?smc (fun _ _ _ _ _ _ => .inl rfl)
  case startup =>
    intro cntfrq pc _
    left
    cases pc <;> simp only [System.startupStep] <;> (try split) <;> rfl
  case start =>
    intro args pc hpc
    have hok := hs.manager
    rw [hpc] at hok
    cases pc with
    | writeSeq seq =>
        have hsettled : s.mailbox.Settled := hok.2.1
        exact .inr ⟨.issue args, if_pos hsettled⟩
    | checkState =>
        left
        simp only [System.startStep]
        split_ifs <;> rfl
    | readSeq ack =>
        left
        simp only [System.startStep]
        split_ifs <;> rfl
    | _ => exact .inl rfl
  case terminate =>
    intro pc _
    left
    cases pc <;> simp only [System.terminateStep] <;> (try split) <;> rfl
  case fiqStep =>
    intro pc _
    left
    simp only [System.fiqStep]
    split <;> rfl
  case setup =>
    intro pc _
    left
    simp only [System.setupStep]
    split <;> rfl
  case loop =>
    intro pc _
    left
    cases pc <;> simp only [System.loopStep] <;> (try split_ifs) <;> rfl
  case noop =>
    intro pc hpc
    have hok := hs.monitor
    rw [hpc] at hok
    cases pc with
    | readAck => exact .inl rfl
    | writeAck ack => exact .inr (hanswer .noop hok.1)
  case command =>
    intro pc hpc
    have hok := hs.monitor
    rw [hpc] at hok
    cases pc with
    | writeAck resp ack => exact .inr (hanswer (.verdict resp) hok.1)
    | checkEntryAddress =>
        left
        simp only [System.commandStep]
        split_ifs <;> rfl
    | validate call pc =>
        left
        simp only [System.commandStep]
        split <;> rfl
    | _ => exact .inl rfl
  case accepted =>
    intro pc _
    left
    cases pc <;> rfl
  case smc =>
    intro c _
    left
    have hframe := System.smcStep_frame cpu s c
    have houtcomes : (s.smcStep cpu c).monitorLog.outcomes =
        s.monitorLog.outcomes := by rw [hframe.monitorLog]
    simp only [System.mailbox, hframe.managerLog, houtcomes]

/-- While no command is pending, only the issue of one changes the mailbox. -/
theorem CommandInv.mailbox_eq_of_settled
    (hs : CommandInv s) (hstate : StateInv s) (h : s.step cpu a = some t)
    (hsettled : s.mailbox.Settled)
    (hissued : t.managerLog.issued = s.managerLog.issued) :
    t.mailbox = s.mailbox := by
  rcases simulates_mailbox s a t ⟨hstate, hs⟩ h with heq | ⟨m, hm⟩
  · exact heq
  · cases m with
    | issue args =>
        have hissue : some ⟨s.managerLog.issued ++ [args],
            s.monitorLog.outcomes⟩ = some t.mailbox :=
          (if_pos hsettled).symm.trans hm
        have hrequests := congrArg Mailbox.State.requests
          (Option.some.inj hissue)
        exact absurd (hrequests.trans hissued) (by simp)
    | answer outcome =>
        have hrefused : none = some t.mailbox :=
          (if_neg hsettled.not_pending).symm.trans hm
        cases hrefused

/-- Every run of the system is, to its commands, a run of a mailbox. -/
theorem mailbox_run
    {as : List Action} (hs : s.Initial)
    (hrun : run (System.step cpu) s as = some t) :
    ∃ ms, run Mailbox.step ⟨[], []⟩ ms = some t.mailbox := by
  have hempty : s.mailbox = ⟨[], []⟩ := by
    simp [System.mailbox, hs.issued, hs.outcomes]
  rw [← hempty]
  refine simulates_mailbox.run ?_ ⟨.initial hs, .initial hs⟩ hrun
  intro s a t hinv ht
  exact ⟨hinv.1.step ht, hinv.2.step hinv.1 ht⟩

/-- From the moment the manager has initialised the block, the sequence numbers
differ by zero or one, modulo `2 ^ 32`.  No command is issued over a pending
one, and no acknowledgement overtakes the commands.  A command is entered
through validation at most once, and only if its own answer is `crc_ok`. -/
theorem command_sequence_discipline
    (h : Reachable (System.step cpu) System.Initial anyStep s) :
    (s.managerLog.cleared = true →
      s.cmdSeq - s.cmdAck = 0 ∨ s.cmdSeq - s.cmdAck = 1) ∧
    (∀ args seq, s.manager.pc = .start args (.writeSeq seq) →
      s.cmdSeq = s.cmdAck ∧ seq = s.cmdSeq + 1) ∧
    (∀ ack, (s.monitor = .noop (.writeAck ack) ∨
        ∃ resp, s.monitor = .command (.writeAck resp ack)) →
      s.cmdSeq = s.cmdAck + 1 ∧ ack = s.cmdSeq) ∧
    (s.monitorLog.entered.map Entry.index).Nodup ∧
    ∀ e ∈ s.monitorLog.entered,
      e.index < s.managerLog.issued.length ∧
        s.monitorLog.outcomes[e.index]? = some (.verdict .crcOk) := by
  have hs := commandInv_of_reachable h
  refine ⟨?_, ?_, ?_, hs.once, ?_⟩
  · intro hcleared
    exact (hs.counts hcleared).sub_eq hs.alternates
  · intro args seq hpc
    have hok := hs.manager
    rw [hpc] at hok
    obtain ⟨hreset, hsettled, hseq⟩ := hok
    exact ⟨(hs.settled_iff hreset).mpr hsettled, hseq⟩
  · intro ack hpc
    have hok : s.monitor ≠ .inReset ∧ s.mailbox.Pending ∧
        ack = s.cmdAck + 1 := by
      have hpoint := hs.monitor
      rcases hpc with hpc | ⟨resp, hpc⟩
      · rw [hpc] at hpoint
        exact ⟨by simp [hpc], hpoint⟩
      · rw [hpc] at hpoint
        exact ⟨by simp [hpc], hpoint⟩
    obtain ⟨hreset, hpending, hack⟩ := hok
    have hseq := (hs.counts (hs.cleared hreset)).seq_eq_succ hpending
    exact ⟨hseq, hack.trans hseq.symm⟩
  · intro e he
    refine ⟨?_, hs.entered e he⟩
    exact (hs.entry_lt he).trans_le hs.alternates.answers_le

/-- A payload is entered, the manager loses patience and has it killed, and a
second one is entered. -/
def twoPayloadsSchedule : List Action :=
  startupSchedule ++
    loadElfSchedule validElf 7 ++ validationSchedule ++ entrySchedule ++
    [.timeout] ++ terminateSchedule ++ restartSchedule ++ managerSteps 1 ++
    loadElfSchedule validElf 8 ++ validationSchedule ++ entrySchedule

theorem command_sequence_discipline_twoPayloads :
    ∃ t, run (System.step .cpu1) System.powerOn twoPayloadsSchedule = some t ∧
      t.monitorLog.entered.length = 2 ∧
      (t.monitorLog.entered.map Entry.index).Nodup := by
  obtain ⟨t, hrun, hreach, hentered⟩ :=
    exists_reachable_of_run (System.step .cpu1) twoPayloadsSchedule
      (fun t => t.monitorLog.entered.length = 2) System.powerOn_initial
      (by decide +kernel)
  exact ⟨t, hrun, hentered, (command_sequence_discipline hreach).2.2.2.1⟩

end Invariant

end Bmboot
