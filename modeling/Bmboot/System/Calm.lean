import Bmboot.System.Parameters

/-!
# A calm monitor

While the published state is `monitor_ready` and no start command waits to be
picked up, the monitor is polling, answering a noop or restarting, and it stays
so until the next command is issued.
-/

namespace Bmboot

open StepSystem

/-- The monitor is polling, answering a noop or restarting. -/
def MonitorPc.AtRest : MonitorPc → Prop
  | .loop _ | .noop _ | .fiq _ | .boot | .setup _ | .publishReady => True
  | _ => False

/-- No payload is about to be started. -/
structure System.Calm (s : System) : Prop where
  state : s.ipc.executorToManager.state = DomainState.monitorReady.code
  monitor : s.monitor.AtRest
  command : s.mailbox.Settled ∨
    s.ipc.managerToExecutor.cmd = Command.noop.code

/-- A start command is pending that the monitor has read or will read. -/
def System.StartPending (s : System) : Prop :=
  s.mailbox.Pending ∧
    (s.ipc.managerToExecutor.cmd = Command.startPayload.code ∨
      s.monitor = .command .writeState)

instance (s : System) : Decidable s.StartPending :=
  inferInstanceAs (Decidable (_ ∧ _))

section Calm

variable {cpu : DomainIndex} {s t : System} {a : Action}

/-- The domain reports `monitor_ready` at rest, and in one more place. -/
theorem atRest_of_ready
    (hstate : StateInv s)
    (hready : s.ipc.executorToManager.state = DomainState.monitorReady.code)
    (hreset : s.monitor ≠ .inReset) :
    s.monitor.AtRest ∨ s.monitor = .command .writeState := by
  have hword := hstate.state
  rw [hready] at hword
  have hstarting : DomainState.monitorReady.code ≠
      DomainState.startingPayload.code := by decide
  have hcrashed : DomainState.monitorReady.code ≠
      DomainState.crashedMonitor.code := by decide
  cases hpc : s.monitor with
  | inReset => exact absurd hpc hreset
  | fiq | boot | setup | publishReady | loop | noop => exact .inl trivial
  | command pc =>
      rw [hpc] at hword
      cases pc with
      | writeState => exact .inr rfl
      | _ => exact absurd hword hstarting
  | accepted | rejected | enterDummy =>
      rw [hpc] at hword
      exact absurd hword hstarting
  | crashed =>
      rw [hpc] at hword
      exact absurd hword hcrashed
  | el1 code =>
      rw [hpc] at hword
      cases code with
      | dummy => exact absurd hword hstarting
      | payload =>
          rcases hword with ⟨h, -⟩ | ⟨h, -⟩ | ⟨h, -⟩ <;>
            exact absurd h (by decide)

/-- A manager that reads `monitor_ready` finds the monitor calm, unless a start
command is pending. -/
theorem calm_of_ready
    (hstate : StateInv s) (hcommand : CommandInv s) (hparam : ParamInv s)
    (hready : s.getState = .monitorReady) (hpending : ¬s.StartPending) :
    s.Calm := by
  obtain ⟨hgeneral, hword⟩ := System.getState_eq hready (by decide)
  have hreset : s.monitor ≠ .inReset := by
    rcases hstate.general with ⟨hin, -⟩ | ⟨-, hne⟩
    · rw [hgeneral] at hin
      cases hin
    · exact hne
  refine ⟨hword, ?_, ?_⟩
  · rcases atRest_of_ready hstate hword hreset with hrest | hpc
    · exact hrest
    · have hok := hcommand.monitor
      rw [hpc] at hok
      exact absurd ⟨hok, .inr hpc⟩ hpending
  · rcases hcommand.alternates with hsettled | hpend
    · exact .inl hsettled
    · have hissued : s.managerLog.issued ≠ [] := by
        intro hnil
        have hlen : s.managerLog.issued.length =
            s.monitorLog.outcomes.length + 1 := hpend
        rw [hnil] at hlen
        cases hlen
      rcases hparam.known hissued with hnoop | hstart
      · exact .inr hnoop
      · exact absurd ⟨hpend, .inl hstart⟩ hpending

theorem System.Calm.settled_or
    (hs : s.Calm) (hmailbox : t.mailbox = s.mailbox)
    (hcmd : t.ipc.managerToExecutor.cmd = s.ipc.managerToExecutor.cmd) :
    t.mailbox.Settled ∨ t.ipc.managerToExecutor.cmd = Command.noop.code := by
  rw [hmailbox, hcmd]
  exact hs.command

/-- The monitor stays calm as long as the manager issues no command. -/
theorem System.Calm.step
    (hs : s.Calm) (hstate : StateInv s) (hkill : KillInv cpu s)
    (hcommand : CommandInv s) (h : s.step cpu a = some t)
    (hissued : t.managerLog.issued = s.managerLog.issued)
    (hcmd : t.ipc.managerToExecutor.cmd = s.ipc.managerToExecutor.cmd) :
    t.Calm := by
  have hrest := hs.monitor
  have hnot : ∀ {P : Prop} {pc : MonitorPc}, s.monitor = pc → ¬pc.AtRest →
      P := by
    rintro P pc rfl hpc
    exact absurd hrest hpc
  revert hissued hcmd
  refine System.step_cases_core
    (P := fun _ t => t.managerLog.issued = s.managerLog.issued →
      t.ipc.managerToExecutor.cmd = s.ipc.managerToExecutor.cmd → t.Calm) h
    ?startup ?terminate ?manager ?fiqStep ?boot ?setup ?publishReady ?loop
    ?noop (fun _ hpc => hnot hpc not_false) (fun _ hpc => hnot hpc not_false)
    (fun hpc => hnot hpc not_false) (fun hpc => hnot hpc not_false) ?fiq
    (fun _ hpc => hnot hpc not_false) (fun _ _ _ _ _ hpc => hnot hpc not_false)
  case startup =>
    intro cntfrq pc hpc _ _
    have hreset := hstate.startup cntfrq pc hpc
    have hin : s.monitor ≠ .inReset := by
      intro hin
      rw [hin] at hrest
      exact hrest
    cases pc with
    | guard =>
        simp only [System.startupStep]
        split_ifs <;> exact ⟨hs.state, hrest, hs.command⟩
    | clearIpc | writeState => exact absurd hreset hin
    | writeCntfrq | bootCore => exact absurd hreset.1 hin
  case terminate =>
    intro pc _ _ _
    cases pc with
    | guard =>
        simp only [System.terminateStep]
        split_ifs <;> exact ⟨hs.state, hrest, hs.command⟩
    | writeCmd => exact ⟨hs.state, hrest, .inr rfl⟩
    | sendIpi => exact ⟨hs.state, hrest, hs.command⟩
  case manager =>
    intro a t _ hsame hissued hcmd
    refine ⟨?_, ?_, hs.settled_or ?_ hcmd⟩
    · rw [hsame.inbox]
      exact hs.state
    · rw [hsame.monitor]
      exact hrest
    · simp only [System.mailbox, hissued, hsame.monitorLog]
  case fiqStep =>
    intro pc hpc _ _
    have hok := hkill.fiq pc hpc
    simp only [System.fiqStep]
    split
    · exact ⟨hs.state, trivial, hs.command⟩
    · exact ⟨hs.state, trivial, hs.command⟩
    next irq iar hstep =>
      obtain ⟨hboot, -⟩ := hok.step_ret hkill.onlyKill hstep
      cases hboot
  case boot =>
    intro _ _ _
    exact ⟨hs.state, trivial, hs.command⟩
  case setup =>
    intro pc _ _ _
    simp only [System.setupStep]
    split <;> exact ⟨hs.state, trivial, hs.command⟩
  case publishReady =>
    intro _ _ _
    exact ⟨rfl, trivial, hs.command⟩
  case loop =>
    intro pc hpc _ _
    have hok := hcommand.monitor
    rw [hpc] at hok
    cases pc with
    | readSeq => exact ⟨hs.state, trivial, hs.command⟩
    | readAck seq =>
        simp only [System.loopStep]
        split_ifs <;> exact ⟨hs.state, trivial, hs.command⟩
    | readCmd =>
        have hnoop : s.ipc.managerToExecutor.cmd = Command.noop.code :=
          hs.command.resolve_left fun hsettled => hsettled.not_pending hok
        simp only [System.loopStep, hnoop, if_true]
        exact ⟨hs.state, trivial, hs.command⟩
  case noop =>
    intro pc hpc _ _
    have hok := hcommand.monitor
    rw [hpc] at hok
    cases pc with
    | readAck => exact ⟨hs.state, trivial, hs.command⟩
    | writeAck ack =>
        exact ⟨hs.state, trivial,
          .inl (Mailbox.settled_answer Outcome.noop hok.1)⟩
  case fiq =>
    intro _ _ _ _ _
    exact ⟨hs.state, trivial, hs.command⟩

end Calm

end Bmboot
