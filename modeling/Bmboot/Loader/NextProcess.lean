import Bmboot.Loader.Startable
import Bmboot.System.Succession

/-!
# The next process can start a payload

Whatever a manager process has left half done when it was killed, the next one
can start the monitor or get it back, and then load and start a payload, unless
the domain is lost.
-/

namespace Bmboot

open StepSystem

/-! ## What a new process can do -/

section System

variable {cpu : DomainIndex} {s : System}

/-- A startup that has got past its guard brings the monitor up. -/
theorem exists_booted
    {cntfrq : BitVec 32} (hs : s.Sound cpu)
    (hpc : s.manager.pc = .startup cntfrq .clearIpc) (hreset : s.monitor = .inReset) :
    ∃ t, Reaches (System.step cpu) Action.OnlyConfirms s t ∧
      t.manager.pc = .idle ∧ t.Recoverable cpu := by
  have hclear : s.step cpu .manager = some (s.startupStep cntfrq .clearIpc) := by
    simp only [System.step, System.managerStep, hpc]
  obtain ⟨u, hu, hmonitor, hawait⟩ : ∃ u,
      Reaches (System.step cpu) Action.OnlyConfirms s u ∧
        u.monitor = .boot ∧ u.manager.pc = .await := by
    refine ⟨_, .head hclear trivial (.head (a := .manager) rfl trivial
      (.head (a := .manager) rfl trivial (.head (a := .manager) rfl trivial
        (.refl _ _ _)))), ?_, ?_⟩
    · simp only [System.startupStep, System.gotoManager, System.setOutbox, hreset]
    · simp only [System.startupStep, System.gotoManager, System.setOutbox, hreset]
  have hback : u.WayBack cpu u.manager :=
    { sound := hs.reaches hu
      manager := rfl
      notReset := by
        rw [hmonitor]
        exact MonitorPc.noConfusion
      notCrashed := by
        rw [hmonitor]
        exact MonitorPc.noConfusion
      pending := by
        rw [hmonitor]
        exact False.elim }
  obtain ⟨as, v, has, hrun, hv, hready⟩ := hback.exists_run
  have hconfirms : ∀ a ∈ as, a.OnlyConfirms := fun a ha =>
    (has a ha).unaided.onlyConfirms
  refine ⟨v.finish none, ?_, rfl, ?_⟩
  · exact hu.trans (Reaches.trans ⟨as, hconfirms, hrun⟩
      (.head (hv.await hawait hready).1 trivial (.refl _ _ _)))
  · have hmonitor' : (v.finish none).monitor = .loop .readSeq := hready
    rw [System.Recoverable, hmonitor']
    exact ⟨MonitorPc.noConfusion, MonitorPc.noConfusion, MonitorPc.noConfusion⟩

theorem recoverable_of_not_lost
    (hreset : s.monitor ≠ .inReset) (h : ¬s.Lost cpu) : s.Recoverable cpu := by
  rw [System.Lost, not_or] at h
  refine ⟨hreset, h.1, fun hpayload => ?_⟩
  by_contra hspoilt
  exact h.2 ⟨hpayload, Bool.eq_false_of_not_eq_true hspoilt⟩

end System

section Successor

variable {cpu : DomainIndex} {s t : Succession}

namespace Succession

/-- With a cookie in place, the system goes its own way. -/
theorem step_act
    {a : Action} {u : System} (hcookie : s.cookieFound = true)
    (h : s.system.step cpu a = some u) :
    s.step cpu (.act a) = some { s with system := u } := by
  cases a with
  | manager =>
      simp only [step, managerStep, hcookie, h, Bool.not_true, Bool.and_false,
        Bool.false_eq_true, if_false, Option.map_some]
  | _ => simp only [step, h, Option.map_some]

theorem run_act
    {as : List Action} {u : System} (hcookie : s.cookieFound = true)
    (h : run (System.step cpu) s.system as = some u) :
    run (Succession.step cpu) s (as.map .act) = some { s with system := u } := by
  induction as generalizing s with
  | nil =>
      cases h
      rfl
  | cons a as ih =>
      obtain ⟨v, hv, hrest⟩ := run_cons_eq_some.mp h
      have hnext : run (Succession.step cpu) { s with system := v } (as.map .act) =
          some { s with system := u } := ih (s := { s with system := v }) hcookie hrest
      exact run_cons_eq_some.mpr ⟨_, step_act hcookie hv, hnext⟩

/-- A process that finds the core in reset gets as far as the copied monitor. -/
theorem exists_copied
    (hs : s.Inv cpu) (hidle : s.system.manager.pc = .idle)
    (hreset : s.system.monitor = .inReset) :
    ∃ (as : List Action) (t : Succession), (∀ a ∈ as, a.OnlyConfirms) ∧
      run (Succession.step cpu) s (as.map .act) = some t ∧
      t.cookieFound = true ∧ t.system.manager.pc = .startup 0 .clearIpc ∧
      t.system.monitor = .inReset := by
  have hgeneral : s.system.manager.generalState = .inReset := by
    rcases hs.sound.state.general with ⟨hgeneral, -⟩ | ⟨-, hnot⟩
    · exact hgeneral
    · exact absurd hreset hnot
  let called := s.system.beginCall cpu (.startup 0)
  let guarded := called.gotoManager (.startup 0 .clearIpc)
  have hcall : s.step cpu (.act (.call (.startup 0))) =
      some { s with system := called } := by
    simp only [step, System.step, System.callStep, hidle, Option.map_some, called]
  have hguard : ({ s with system := called } : Succession).step cpu (.act .manager) =
      some { s with system := guarded } := by
    have hpasses : called.step cpu .manager = some guarded :=
      congrArg some (if_neg (not_not_intro hgeneral))
    have hpc : called.manager.pc.copiesMonitor = false := rfl
    simp only [step, managerStep, hpc, hpasses, Bool.false_and, Bool.false_eq_true,
      if_false, Option.map_some]
  cases hcookie : s.cookieFound with
  | true =>
      refine ⟨[.call (.startup 0), .manager], { s with system := guarded }, ?_, ?_,
        hcookie, rfl, hreset⟩
      · exact List.forall_mem_cons.mpr ⟨trivial, onlyConfirms_managerSteps 1⟩
      · exact run_cons_eq_some.mpr ⟨_, hcall, run_cons_eq_some.mpr ⟨_, hguard, rfl⟩⟩
  | false =>
      have hcopy : ({ s with system := guarded } : Succession).step cpu
          (.act .manager) = some { system := guarded, cookieFound := true } := by
        have hpc : guarded.manager.pc.copiesMonitor = true := rfl
        simp only [step, managerStep, hpc, hcookie, Bool.not_false, Bool.and_true,
          if_true]
      refine ⟨[.call (.startup 0), .manager, .manager],
        { system := guarded, cookieFound := true }, ?_, ?_, rfl, rfl, hreset⟩
      · exact List.forall_mem_cons.mpr ⟨trivial, onlyConfirms_managerSteps 2⟩
      · exact run_cons_eq_some.mpr ⟨_, hcall, run_cons_eq_some.mpr ⟨_, hguard,
          run_cons_eq_some.mpr ⟨_, hcopy, rfl⟩⟩⟩

theorem Inv.run
    {as : List ProcessAction} (hs : s.Inv cpu)
    (h : StepSystem.run (Succession.step cpu) s as = some t) : t.Inv cpu :=
  run_preserves (fun _ _ _ hs h => Inv.step hs h) hs h

/-- Unless the domain is lost, a process gets it into a recoverable state. -/
theorem exists_recoverable
    (hs : s.Inv cpu) (hidle : s.system.manager.pc = .idle)
    (hlost : ¬s.system.Lost cpu) :
    ∃ (as : List Action) (t : Succession), (∀ a ∈ as, a.OnlyConfirms) ∧
      run (Succession.step cpu) s (as.map .act) = some t ∧
      t.cookieFound = true ∧ t.system.manager.pc = .idle ∧
      t.system.Recoverable cpu := by
  by_cases hreset : s.system.monitor = .inReset
  · obtain ⟨as, t, has, hrun, hcookie, hpc, hreset'⟩ := exists_copied hs hidle hreset
    have ht := hs.run hrun
    obtain ⟨u, ⟨bs, hbs, hbooted⟩, hidle', hrecoverable⟩ :=
      exists_booted ht.sound hpc hreset'
    refine ⟨as ++ bs, { t with system := u }, List.forall_mem_append.mpr ⟨has, hbs⟩,
      ?_, hcookie, hidle', hrecoverable⟩
    rw [List.map_append, run_append, hrun, Option.bind_some]
    exact run_act hcookie hbooted
  · exact ⟨[], s, List.forall_mem_nil _, rfl, hs.cookie (.inl hreset), hidle,
      recoverable_of_not_lost hreset hlost⟩

end Succession

/-! ## No other interrupt gets in -/

/-- The payload at most confirms its start; the process may change. -/
def ProcessAction.OnlyConfirms : ProcessAction → Prop
  | .act a => a.OnlyConfirms
  | .replace => True

namespace Succession

/-- At power-on no interrupt but the kill interrupt is enabled for the core. -/
def QuietInitial (cpu : DomainIndex) (s : Succession) : Prop :=
  s.system.QuietInitial cpu

/-- The payloads enable only interrupts that they have configured. -/
def UsesOwnInterrupts (cpu : DomainIndex) (s : Succession) : ProcessAction → Prop
  | .act a => Bmboot.UsesOwnInterrupts cpu s.system a
  | .replace => True

instance (cpu : DomainIndex) (s : Succession) :
    ∀ a : ProcessAction, Decidable (s.UsesOwnInterrupts cpu a)
  | .act a => inferInstanceAs (Decidable (Bmboot.UsesOwnInterrupts cpu s.system a))
  | .replace => inferInstanceAs (Decidable True)

theorem othersOk_step
    {a : ProcessAction} (hs : s.Inv cpu)
    (hothers : s.system.monitor.OthersOk cpu s.system.irq)
    (ha : s.UsesOwnInterrupts cpu a) (h : s.step cpu a = some t) :
    t.system.monitor.OthersOk cpu t.system.irq := by
  rcases step_cases h with ⟨-, rfl⟩ | rfl | ⟨a', u, rfl, hu, -, rfl⟩
  · exact hothers
  · exact hothers
  · exact Bmboot.othersOk_step hs.sound.state hothers ha hu

/-- What the successions keep about the interrupts other than the kill
interrupt. -/
structure OthersInv (cpu : DomainIndex) (s : Succession) : Prop where
  inv : s.Inv cpu
  others : s.system.monitor.OthersOk cpu s.system.irq

theorem OthersInv.step
    {a : ProcessAction} (hs : s.OthersInv cpu) (ha : s.UsesOwnInterrupts cpu a)
    (h : s.step cpu a = some t) : t.OthersInv cpu where
  inv := hs.inv.step h
  others := othersOk_step hs.inv hs.others ha h

theorem othersInv_of_reachable
    (h : Reachable (Succession.step cpu) (QuietInitial cpu)
      (UsesOwnInterrupts cpu) s) :
    s.OthersInv cpu := by
  refine h.invariant ?_ fun _ _ _ _ hs ha ht => hs.step ha ht
  intro s hs
  refine ⟨.initial hs.toInitial, ?_⟩
  rw [hs.monitor]
  exact hs.quiet

theorem usesOwnInterrupts_of_onlyConfirms
    {a : ProcessAction} (ha : a.OnlyConfirms) : s.UsesOwnInterrupts cpu a := by
  cases a with
  | act a => exact Action.OnlyConfirms.usesOwnInterrupts ha
  | replace => trivial

theorem onlyKillReaches_of_run
    {as : List ProcessAction} (hs : s.OthersInv cpu)
    (has : ∀ a ∈ as, a.OnlyConfirms)
    (hrun : StepSystem.run (Succession.step cpu) s as = some t) :
    t.system.OnlyKillReaches cpu := by
  have ht : t.OthersInv cpu :=
    run_preserves_of
      (fun _ _ _ hs ha h => hs.step (usesOwnInterrupts_of_onlyConfirms ha) h)
      hs has hrun
  exact ht.others.onlyKillReaches

end Succession

/-! ## The next process -/

/-- The payload takes no part in the step; the process may change. -/
def ProcessAction.Unaided : ProcessAction → Prop
  | .act a => a.Unaided
  | .replace => True

theorem Succession.lost_step
    {a : ProcessAction} (hs : s.Inv cpu ∧ s.system.Lost cpu) (ha : a.Unaided)
    (h : s.step cpu a = some t) : t.Inv cpu ∧ t.system.Lost cpu := by
  refine ⟨hs.1.step h, ?_⟩
  rcases Succession.step_cases h with ⟨-, rfl⟩ | rfl | ⟨a', u, rfl, hu, -, rfl⟩
  · exact hs.2
  · exact hs.2
  · exact hs.2.step hs.1.sound ha hu

/-- If payloads enable only what they have configured, then however many processes
have had the domain, and wherever each was killed: no interrupt but the kill
interrupt gets to the monitor; if the domain is not lost, the next process can
have any valid image running, with a success of `loadAndStartPayload`; and if it
is, neither that process nor any later one, nor the core, makes it read
`monitor_ready`. -/
theorem next_process_runs_or_lost
    {f : FlatImage} (hvalid : f.Valid)
    (h : Reachable (Succession.step f.domain) (Succession.QuietInitial f.domain)
      (Succession.UsesOwnInterrupts f.domain) s) :
    (∀ as t, (∀ a ∈ as, a.OnlyConfirms) →
      run (Succession.step f.domain) s as = some t →
        t.system.OnlyKillReaches f.domain) ∧
    (¬s.system.Lost f.domain →
      ∃ (as : List Action) (t : Succession), (∀ a ∈ as, a.OnlyConfirms) ∧
        run (Succession.step f.domain) s (.replace :: as.map .act) = some t ∧
          t.system.Runs f) ∧
    (s.system.Lost f.domain →
      ∀ as t, (∀ a ∈ as, a.Unaided) →
        run (Succession.step f.domain) s as = some t →
          t.system.getState ≠ .monitorReady) := by
  have hothers := Succession.othersInv_of_reachable h
  have hs := hothers.inv
  refine ⟨?_, ?_, ?_⟩
  · intro as t has hrun
    exact Succession.onlyKillReaches_of_run hothers has hrun
  · intro hlost
    obtain ⟨as, t, has, hrun, hcookie, hidle, hrecoverable⟩ :=
      Succession.exists_recoverable hs.replace rfl hlost
    have ht := hs.replace.run hrun
    obtain ⟨u, ⟨bs, hbs, hstarted⟩, hu⟩ :=
      hrecoverable.exists_runs ht.sound hidle hvalid
    refine ⟨as ++ bs, { t with system := u },
      List.forall_mem_append.mpr ⟨has, hbs⟩, ?_, hu⟩
    refine run_cons_eq_some.mpr ⟨s.replace, rfl, ?_⟩
    rw [List.map_append, run_append, hrun, Option.bind_some]
    exact Succession.run_act hcookie hstarted
  · intro hlost as t has hrun
    obtain ⟨ht, hlost'⟩ :=
      run_preserves_of (fun _ _ _ hs ha h => Succession.lost_step hs ha h)
        ⟨hs, hlost⟩ has hrun
    exact hlost'.not_ready ht.sound

/-- A process starts the monitor, and is killed when it has written the entry
address of a command and not yet its size. -/
def abandonedSchedule : List ProcessAction :=
  (copyingStartupSchedule ++
    .call (.loadElfPayload validElf 7) :: managerSteps 14).map .act

theorem next_process_runs_or_lost_abandoned :
    ∃ s, run (Succession.step .cpu1)
        { system := System.powerOn, cookieFound := false } abandonedSchedule = some s ∧
      s.system.manager.pc = .start (elfLoad validElf 7).args .writeSize ∧
      ∃ (as : List Action) (t : Succession),
        run (Succession.step .cpu1) s (.replace :: as.map .act) = some t ∧
          t.system.Runs bareHeader := by
  have hinitial : Succession.QuietInitial .cpu1
      { system := System.powerOn, cookieFound := false } :=
    System.powerOn_quietInitial .cpu1
  obtain ⟨s, hrun, hreach, hpc, hmonitor⟩ :=
    exists_run_of_restrict_run (Succession.step .cpu1)
      (Succession.UsesOwnInterrupts .cpu1) abandonedSchedule
      (fun s => s.system.manager.pc = .start (elfLoad validElf 7).args .writeSize ∧
        s.system.monitor = .loop .readSeq)
      hinitial (by decide +kernel)
  have hlost : ¬s.system.Lost bareHeader.domain := by
    rintro (hcrashed | ⟨hpayload, -⟩)
    · exact MonitorPc.noConfusion (hmonitor.symm.trans hcrashed)
    · exact MonitorPc.noConfusion (hmonitor.symm.trans hpayload)
  obtain ⟨as, t, -, hnext, hruns⟩ :=
    (next_process_runs_or_lost bareHeader_valid hreach).2.1 hlost
  exact ⟨s, hrun, hpc, as, t, hnext, hruns⟩

end Successor

end Bmboot
