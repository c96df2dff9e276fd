import Bmboot.Boot.Startup
import Bmboot.System.Parameters
import Bmboot.System.Recovery

/-!
# One manager process after another

A manager process can be killed between any two of its accesses, in the middle
of a startup, of a load or of a command.  The next one opens the domain, and
knows nothing but what `IDomain::open` looks at: the reset register and the
cookie in the monitor memory.
-/

namespace Bmboot

open StepSystem

/-! ## Processes -/

/-- What `IDomain::open` takes a domain for. -/
def generalStateAtOpen (inReset cookieFound : Bool) : DomainGeneralState :=
  if inReset then .inReset
  else if cookieFound then .monitorStarted
  else .unavailable

/-- With everything mapped, that is what a process gets that opens it. -/
theorem openDomain_eq_generalStateAtOpen
    (cpu : DomainIndex) (m : Machine) (p : ManagerProcess) :
    openDomain cpu
        { devmem := true, ipcMapped := true, codeMapped := true, apuMapped := true }
        m p =
      ({ devmem := true
         opened := true
         generalState :=
          generalStateAtOpen (m.apu.coreInReset cpu) m.cookieFound }, none) := by
  simp only [openDomain, generalStateAtOpen, isCoreInReset, Bool.or_true,
    Bool.true_eq_false, if_false]
  rfl

/-- The monitor and its cookie are to be copied before the block is cleared. -/
def ManagerPc.copiesMonitor : ManagerPc → Bool
  | .startup _ .clearIpc => true
  | _ => false

/-- The system, and whether there is a cookie in the monitor memory. -/
structure Succession where
  system : System
  cookieFound : Bool

/-- A step of the system, or the end of the manager process and the beginning
of the next. -/
inductive ProcessAction
  | act (a : Action)
  | replace

namespace Succession

def managerStep (cpu : DomainIndex) (s : Succession) : Option Succession :=
  if s.system.manager.pc.copiesMonitor && !s.cookieFound then
    some { s with cookieFound := true }
  else (s.system.step cpu .manager).map fun t => { s with system := t }

/-- The process that is between no accesses of its own has opened the domain. -/
def replace (s : Succession) : Succession :=
  { s with
    system :=
      { s.system with
        manager :=
          { generalState :=
              generalStateAtOpen (decide (s.system.monitor = .inReset)) s.cookieFound
            pc := .idle
            call := none
            result := none } } }

def step (cpu : DomainIndex) (s : Succession) : ProcessAction → Option Succession
  | .act .manager => s.managerStep cpu
  | .act a => (s.system.step cpu a).map fun t => { s with system := t }
  | .replace => some s.replace

/-- Nobody has opened the domain yet; the monitor memory holds anything. -/
def Initial (s : Succession) : Prop := s.system.Initial

end Succession

/-! ## When there is a cookie -/

/-- The copying of the monitor is over. -/
def ManagerPc.copied : ManagerPc → Bool
  | .startup _ .guard | .startup _ .clearIpc => false
  | .startup _ _ => true
  | _ => false

/-- Without the copying, the core would still be in reset. -/
def System.NeedsCookie (s : System) : Prop :=
  s.monitor ≠ .inReset ∨ s.manager.pc.copied = true

section Cookie

variable {cpu : DomainIndex} {s t : System} {a : Action}

theorem ne_inReset_of_ofCore
    (ha : a.OfCore) (h : s.step cpu a = some t) : s.monitor ≠ .inReset := by
  intro hreset
  cases a with
  | call | manager | fail | timeout => exact ha
  | monitor => simp [System.step, System.monitorStep, hreset] at h
  | fiq => simp [System.step, System.fiq, hreset] at h
  | smc => simp [System.step, System.smc, hreset] at h
  | abort => simp [System.step, System.abort, hreset] at h

theorem needsCookie_startupStep
    {cntfrq : BitVec 32} {pc : StartupPc} (hpc : s.manager.pc = .startup cntfrq pc)
    (ht : (s.startupStep cntfrq pc).NeedsCookie) :
    s.NeedsCookie ∨ s.manager.pc.copiesMonitor = true := by
  rw [System.NeedsCookie, hpc]
  cases pc with
  | clearIpc => exact .inr rfl
  | writeState | writeCntfrq | bootCore => exact .inl (.inr rfl)
  | guard =>
      refine .inl (.inl ?_)
      rcases ht with hmonitor | hcopied
      · simp only [System.startupStep] at hmonitor
        split_ifs at hmonitor <;> exact hmonitor
      · simp only [System.startupStep] at hcopied
        split_ifs at hcopied <;> exact absurd hcopied Bool.false_ne_true

theorem needsCookie_of_not_copied
    (ht : t.NeedsCookie) (hmonitor : t.monitor = s.monitor)
    (hcopied : t.manager.pc.copied = false) : s.NeedsCookie := by
  rcases ht with ht | ht
  · exact .inl (hmonitor ▸ ht)
  · exact absurd (hcopied.symm.trans ht) Bool.false_ne_true

theorem needsCookie_of_finish {r : MaybeError} (ht : (s.finish r).NeedsCookie) :
    s.NeedsCookie :=
  needsCookie_of_not_copied ht rfl rfl

theorem needsCookie_step
    (h : s.step cpu a = some t) (ht : t.NeedsCookie) :
    s.NeedsCookie ∨ a = .manager ∧ s.manager.pc.copiesMonitor = true := by
  revert ht
  refine System.step_cases_manager
    (P := fun a t => t.NeedsCookie →
      s.NeedsCookie ∨ a = .manager ∧ s.manager.pc.copiesMonitor = true) h
    ?call ?startup ?ensure ?load ?start ?poll ?terminate ?await
    (fun _ _ ht => .inl (needsCookie_of_finish ht))
    (fun _ ht => .inl (needsCookie_of_finish ht))
    (fun _ ht => .inl (needsCookie_of_finish ht))
    (fun a t h ha _ _ => .inl (.inl (ne_inReset_of_ofCore ha h)))
  case call =>
    intro c _ ht
    cases c <;> exact .inl (needsCookie_of_not_copied ht rfl rfl)
  case startup =>
    intro cntfrq pc hpc ht
    exact (needsCookie_startupStep hpc ht).imp id fun hcopies => ⟨rfl, hcopies⟩
  case ensure =>
    intro cntfrq _ ht
    refine .inl (needsCookie_of_not_copied ht ?_ ?_)
    · simp only [System.ensureStep]
      split_ifs <;> rfl
    · simp only [System.ensureStep]
      split_ifs <;> rfl
  case load =>
    intro load pc _ ht
    refine .inl (needsCookie_of_not_copied ht ?_ ?_)
    · exact (s.loadStep_sameExecutor load pc).monitor
    · cases pc with
      | checkState =>
          simp only [System.loadStep]
          split_ifs <;> rfl
      | map =>
          simp only [System.loadStep]
          split <;> rfl
      | store rest =>
          cases rest with
          | nil =>
              simp only [System.loadStep]
              split <;> rfl
          | cons => rfl
  case start =>
    intro args pc _ ht
    refine .inl (needsCookie_of_not_copied ht ?_ ?_)
    · exact (s.startStep_sameExecutor args pc).monitor
    · cases pc with
      | checkState | readSeq =>
          simp only [System.startStep]
          split_ifs <;> rfl
      | _ => rfl
  case poll =>
    intro pc _ ht
    refine .inl (needsCookie_of_not_copied ht ?_ ?_)
    · exact (s.pollStep_sameExecutor pc).monitor
    · cases pc with
      | readAck => rfl
      | readSeq | readResp | readState =>
          simp only [System.pollStep]
          split_ifs <;> rfl
  case terminate =>
    intro pc _ ht
    cases pc with
    | guard =>
        refine .inl (needsCookie_of_not_copied ht ?_ ?_)
        · simp only [System.terminateStep]
          split_ifs <;> rfl
        · simp only [System.terminateStep]
          split_ifs <;> rfl
    | writeCmd | sendIpi => exact .inl (needsCookie_of_not_copied ht rfl rfl)
  case await =>
    intro hpc ht
    refine .inl (needsCookie_of_not_copied ht ?_ ?_)
    · exact (s.awaitStep_sameExecutor hpc).monitor
    · simp only [System.awaitStep]
      split_ifs
      · rfl
      · rw [hpc]
        rfl

end Cookie

/-! ## Commands -/

/-- What `startPayloadAt` has written of its parameters. -/
def StartPc.Written (m : ManagerToExecutor) (args : StartArgs) : StartPc → Prop
  | .writeSize => m.payloadEntryAddress = args.entryAddress
  | .writeCrc =>
      m.payloadEntryAddress = args.entryAddress ∧ m.payloadSize = args.payloadSize
  | .writeArgument =>
      m.payloadEntryAddress = args.entryAddress ∧
        m.payloadSize = args.payloadSize ∧ m.payloadCrc = args.payloadCrc
  | .writeCmd | .incrementSeq | .writeSeq _ => m.Carries args
  | _ => True

def ManagerPc.Written (m : ManagerToExecutor) : ManagerPc → Prop
  | .start args pc => pc.Written m args
  | _ => True

/-- While a command waits, the block carries its parameters, whatever becomes of
the process that has issued it. -/
structure System.Whole (s : System) : Prop where
  written : s.manager.pc.Written s.ipc.managerToExecutor
  pending : s.mailbox.Pending → s.CarriesLatest

section Whole

variable {cpu : DomainIndex} {s t : System} {a : Action}

theorem System.Whole.initial (hs : s.Initial) : s.Whole where
  written := by
    rw [hs.pc]
    trivial
  pending := by
    intro _ args hlast
    rw [hs.issued] at hlast
    cases hlast

/-- A step that issues nothing and leaves the parameters alone. -/
theorem System.Whole.keep
    (hs : s.Whole) (hmailbox : t.mailbox = s.mailbox)
    (hcarries : ∀ args, s.ipc.managerToExecutor.Carries args →
      t.ipc.managerToExecutor.Carries args)
    (hwritten : t.manager.pc.Written t.ipc.managerToExecutor) : t.Whole where
  written := hwritten
  pending := by
    rw [hmailbox]
    intro hpending args hlast
    have hissued : t.managerLog.issued = s.managerLog.issued :=
      congrArg Mailbox.State.requests hmailbox
    rw [hissued] at hlast
    exact hcarries args (hs.pending hpending args hlast)

/-- A step that does not write to the manager's half either. -/
theorem System.Whole.idle
    (hs : s.Whole) (hmailbox : t.mailbox = s.mailbox)
    (houtbox : t.ipc.managerToExecutor = s.ipc.managerToExecutor)
    (hwritten : t.manager.pc.Written t.ipc.managerToExecutor) : t.Whole := by
  refine hs.keep hmailbox (fun args hcarries => ?_) hwritten
  rw [houtbox]
  exact hcarries

/-- Behind the guard of `startPayloadAt` no command waits. -/
theorem System.Whole.writes
    (hsettled : s.mailbox.Settled) (hmailbox : t.mailbox = s.mailbox)
    (hwritten : t.manager.pc.Written t.ipc.managerToExecutor) : t.Whole where
  written := hwritten
  pending := by
    rw [hmailbox]
    exact fun hpending => absurd hpending hsettled.not_pending

theorem System.Whole.startupStep
    {cntfrq : BitVec 32} {pc : StartupPc} (hs : s.Whole) (hsound : s.Sound cpu)
    (hpc : s.manager.pc = .startup cntfrq pc) : (s.startupStep cntfrq pc).Whole := by
  cases pc with
  | guard =>
      simp only [System.startupStep]
      split_ifs
      · exact hs.idle rfl rfl trivial
      · exact hs.idle rfl rfl trivial
  | clearIpc =>
      have hreset : s.monitor = .inReset :=
        hsound.state.startup cntfrq .clearIpc hpc
      have hissued := (hsound.command.fresh hreset).1
      refine ⟨trivial, fun _ args hlast => ?_⟩
      have hnone : ([] : List StartArgs).getLast? = some args := hissued ▸ hlast
      cases hnone
  | writeState => exact hs.idle rfl rfl trivial
  | writeCntfrq =>
      refine hs.keep rfl (fun _ h => ?_) trivial
      exact ⟨h.entryAddress, h.size, h.crc, h.argument⟩
  | bootCore =>
      simp only [System.startupStep]
      split
      · exact hs.idle rfl rfl trivial
      · exact hs.idle rfl rfl trivial

theorem System.Whole.startStep
    {args : StartArgs} {pc : StartPc} (hs : s.Whole) (hcommand : CommandInv s)
    (hpc : s.manager.pc = .start args pc) : (s.startStep args pc).Whole := by
  have hwritten := hs.written
  have hguarded := hcommand.manager
  rw [hpc] at hwritten hguarded
  cases pc with
  | checkState | readSeq =>
      simp only [System.startStep]
      split_ifs
      · exact hs.idle rfl rfl trivial
      · exact hs.idle rfl rfl trivial
  | readAck | readWrpos => exact hs.idle rfl rfl trivial
  | writeRdpos => exact .writes hguarded.2 rfl trivial
  | writeEntryAddress => exact .writes hguarded.2 rfl rfl
  | writeSize => exact .writes hguarded.2 rfl ⟨hwritten, rfl⟩
  | writeCrc => exact .writes hguarded.2 rfl ⟨hwritten.1, hwritten.2, rfl⟩
  | writeArgument =>
      exact .writes hguarded.2 rfl ⟨hwritten.1, hwritten.2.1, hwritten.2.2, rfl⟩
  | writeCmd =>
      refine .writes hguarded.2 rfl ?_
      exact ⟨hwritten.entryAddress, hwritten.size, hwritten.crc, hwritten.argument⟩
  | incrementSeq => exact .writes hguarded.2 rfl hwritten
  | writeSeq seq =>
      refine ⟨trivial, fun _ last hlast => ?_⟩
      have hsame : args = last := by
        simpa [System.startStep, System.gotoManager, System.setOutbox] using hlast
      rw [← hsame]
      exact ⟨hwritten.entryAddress, hwritten.size, hwritten.crc, hwritten.argument⟩

/-- The core only answers. -/
theorem System.Whole.core
    (hs : s.Whole) (hsound : s.Sound cpu) (h : s.step cpu a = some t)
    (hsame : System.SameManager s t) : t.Whole where
  written := by
    rw [hsame.manager, hsame.outbox]
    exact hs.written
  pending := by
    intro hpending
    have hissued : t.managerLog.issued = s.managerLog.issued := by
      rw [hsame.managerLog]
    have hpending' : s.mailbox.Pending := by
      rcases simulates_mailbox s a t ⟨hsound.state, hsound.command⟩ h with heq | ⟨m, hm⟩
      · exact heq ▸ hpending
      cases m with
      | answer outcome =>
          simp only [Mailbox.step] at hm
          split_ifs at hm with hanswered
          exact hanswered
      | issue args =>
          simp only [Mailbox.step] at hm
          split_ifs at hm
          have hrequests : s.managerLog.issued ++ [args] = t.managerLog.issued :=
            congrArg Mailbox.State.requests (Option.some.inj hm)
          rw [hissued, List.append_right_eq_self] at hrequests
          cases hrequests
    intro args hlast
    rw [hissued] at hlast
    rw [hsame.outbox]
    exact hs.pending hpending' args hlast

theorem System.Whole.step
    (hs : s.Whole) (hsound : s.Sound cpu) (h : s.step cpu a = some t) : t.Whole := by
  refine System.step_cases_manager (P := fun _ t => t.Whole) h
    ?call (fun cntfrq pc hpc => hs.startupStep hsound hpc) ?ensure ?load
    (fun args pc hpc => hs.startStep hsound.command hpc) ?poll ?terminate ?await
    (fun _ _ => hs.idle rfl rfl trivial)
    (fun _ => hs.idle rfl rfl trivial)
    (fun _ => hs.idle rfl rfl trivial)
    (fun _ _ ht _ hsame => hs.core hsound ht hsame)
  case call =>
    intro c _
    cases c <;> exact hs.idle rfl rfl trivial
  case ensure =>
    intro cntfrq _
    simp only [System.ensureStep]
    split_ifs <;> exact hs.idle rfl rfl trivial
  case load =>
    intro load pc _
    cases pc with
    | checkState =>
        simp only [System.loadStep]
        split_ifs <;> exact hs.idle rfl rfl trivial
    | map =>
        simp only [System.loadStep]
        split <;> exact hs.idle rfl rfl trivial
    | store rest =>
        cases rest with
        | nil =>
            simp only [System.loadStep]
            split <;> exact hs.idle rfl rfl trivial
        | cons store rest => exact hs.idle rfl rfl trivial
  case poll =>
    intro pc _
    cases pc with
    | readAck => exact hs.idle rfl rfl trivial
    | readSeq | readResp | readState =>
        simp only [System.pollStep]
        split_ifs <;> exact hs.idle rfl rfl trivial
  case terminate =>
    intro pc _
    cases pc with
    | guard =>
        simp only [System.terminateStep]
        split_ifs <;> exact hs.idle rfl rfl trivial
    | writeCmd =>
        refine hs.keep rfl (fun _ h => ?_) trivial
        exact ⟨h.entryAddress, h.size, h.crc, h.argument⟩
    | sendIpi => exact hs.idle rfl rfl trivial
  case await =>
    intro _
    simp only [System.awaitStep]
    split_ifs
    · exact hs.idle rfl rfl trivial
    · exact hs

end Whole

/-! ## What every process finds -/

/-- Whatever the processes before have left undone. -/
structure Succession.Inv (cpu : DomainIndex) (s : Succession) : Prop where
  sound : s.system.Sound cpu
  whole : s.system.Whole
  cookie : s.system.NeedsCookie → s.cookieFound = true

section Invariant

variable {cpu : DomainIndex} {s t : Succession} {a : ProcessAction}

namespace Succession

theorem Inv.initial (hs : s.Initial) : s.Inv cpu where
  sound := System.Initial.sound hs
  whole := .initial hs
  cookie := by
    rintro (hmonitor | hcopied)
    · exact absurd hs.monitor hmonitor
    · rw [hs.pc] at hcopied
      exact absurd hcopied Bool.false_ne_true

/-- The new process has the same view of the domain as the old one. -/
theorem Inv.generalStateAtOpen_eq (hs : s.Inv cpu) :
    generalStateAtOpen (decide (s.system.monitor = .inReset)) s.cookieFound =
      s.system.manager.generalState := by
  rcases hs.sound.state.general with ⟨hgeneral, hreset⟩ | ⟨hgeneral, hreset⟩
  · rw [hgeneral, decide_eq_true hreset]
    rfl
  · rw [hgeneral, decide_eq_false hreset, hs.cookie (.inl hreset)]
    rfl

/-- A process that is killed leaves a sound state. -/
theorem Inv.replace (hs : s.Inv cpu) : s.replace.Inv cpu where
  sound :=
    { state :=
        { state := hs.sound.state.state
          startup := fun _ _ hpc => ManagerPc.noConfusion hpc
          general := by
            have hgeneral := hs.sound.state.general
            rw [← hs.generalStateAtOpen_eq] at hgeneral
            exact hgeneral
          masked := hs.sound.state.masked }
      kill :=
        { onlyKill := hs.sound.kill.onlyKill
          fiq := hs.sound.kill.fiq
          accounted := hs.sound.kill.accounted }
      command :=
        { alternates := hs.sound.command.alternates
          counts := hs.sound.command.counts
          cleared := hs.sound.command.cleared
          fresh := hs.sound.command.fresh
          manager := trivial
          monitor := hs.sound.command.monitor
          entered := hs.sound.command.entered
          once := hs.sound.command.once }
      killReady := hs.sound.killReady }
  whole := ⟨trivial, hs.whole.pending⟩
  cookie := by
    rintro (hmonitor | hcopied)
    · exact hs.cookie (.inl hmonitor)
    · exact absurd hcopied Bool.false_ne_true

/-- What a step can be. -/
theorem step_cases (h : s.step cpu a = some t) :
    (a = .replace ∧ t = s.replace) ∨
      t = { s with cookieFound := true } ∨
      ∃ (a' : Action) (u : System), a = .act a' ∧ s.system.step cpu a' = some u ∧
        (a' = .manager → s.system.manager.pc.copiesMonitor = true →
          s.cookieFound = true) ∧
        t = { s with system := u } := by
  cases a with
  | replace => exact .inl ⟨rfl, (Option.some.inj h).symm⟩
  | act a =>
      by_cases hmanager : a = .manager
      · subst hmanager
        simp only [step, managerStep] at h
        split_ifs at h with hcopy
        · exact .inr (.inl (Option.some.inj h).symm)
        · obtain ⟨u, hu, rfl⟩ := Option.map_eq_some_iff.mp h
          refine .inr (.inr ⟨.manager, u, rfl, hu, fun _ hcopies => ?_, rfl⟩)
          simpa [hcopies] using hcopy
      · have hstep : s.step cpu (.act a) =
            (s.system.step cpu a).map fun t => { s with system := t } := by
          cases a with
          | manager => exact absurd rfl hmanager
          | _ => rfl
        rw [hstep] at h
        obtain ⟨u, hu, rfl⟩ := Option.map_eq_some_iff.mp h
        exact .inr (.inr ⟨a, u, rfl, hu, fun ha => absurd ha hmanager, rfl⟩)

theorem Inv.step (hs : s.Inv cpu) (h : s.step cpu a = some t) : t.Inv cpu := by
  rcases step_cases h with ⟨-, rfl⟩ | rfl | ⟨a', u, -, hu, hcopied, rfl⟩
  · exact hs.replace
  · exact ⟨hs.sound, hs.whole, fun _ => rfl⟩
  · refine ⟨hs.sound.step hu, hs.whole.step hs.sound hu, fun hneeds => ?_⟩
    rcases needsCookie_step hu hneeds with hneeds' | ⟨ha, hcopies⟩
    · exact hs.cookie hneeds'
    · exact hcopied ha hcopies

theorem inv_of_reachable
    (h : Reachable (Succession.step cpu) Initial anyStep s) : s.Inv cpu :=
  h.invariant (fun _ hs => .initial hs) fun _ _ _ _ hs _ ht => hs.step ht

end Succession

end Invariant

/-- However many processes have had the domain, and wherever each was killed: the
commands of all of them are answered one after the other, at most the last one
is waiting, and while it waits the block carries its parameters and nobody
else's; a payload is entered for an accepted command, and for each at most
once. -/
theorem commands_whole_across_processes
    {cpu : DomainIndex} {s : Succession}
    (h : Reachable (Succession.step cpu) Succession.Initial anyStep s) :
    s.system.mailbox.Alternates ∧
      (s.system.mailbox.Pending → s.system.CarriesLatest) ∧
      (∀ e ∈ s.system.monitorLog.entered,
        s.system.monitorLog.outcomes[e.index]? = some (.verdict .crcOk)) ∧
      (s.system.monitorLog.entered.map Entry.index).Nodup := by
  have hs := Succession.inv_of_reachable h
  have hcommand := hs.sound.command
  exact ⟨hcommand.alternates, hs.whole.pending, hcommand.entered, hcommand.once⟩

/-- A startup with the monitor still to be copied, until the monitor polls for
commands. -/
def copyingStartupSchedule : List Action :=
  .call (.startup 0) :: managerSteps 6 ++ monitorSteps 17 ++ managerSteps 1

/-- The first process is killed when it has issued a command; the payload is
entered while the next one does nothing. -/
def orphanedCommandSchedule : List ProcessAction :=
  (copyingStartupSchedule ++ loadElfSchedule validElf 7).map .act ++ .replace ::
    (validationSchedule ++ entrySchedule).map .act

theorem commands_whole_across_processes_orphaned :
    ∃ s, run (Succession.step .cpu1)
        { system := System.powerOn, cookieFound := false }
          orphanedCommandSchedule = some s ∧
      s.system.manager.call = none ∧
      s.system.monitorLog.entered.map Entry.index = [0] ∧
      s.system.monitorLog.outcomes[0]? = some (.verdict .crcOk) := by
  have hinitial : Succession.Initial { system := System.powerOn, cookieFound := false } :=
    System.powerOn_initial
  obtain ⟨s, hrun, hreach, hcall, hentered⟩ :=
    exists_reachable_of_run (Succession.step .cpu1) orphanedCommandSchedule
      (fun s => s.system.manager.call = none ∧
        s.system.monitorLog.entered.map Entry.index = [0])
      hinitial (by decide +kernel)
  obtain ⟨e, he, hindex⟩ := List.mem_map.mp (hentered ▸ List.mem_singleton_self 0)
  refine ⟨s, hrun, hcall, hentered, ?_⟩
  rw [← hindex]
  exact (commands_whole_across_processes hreach).2.2.1 e he

end Bmboot
