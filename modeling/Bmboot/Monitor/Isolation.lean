import Bmboot.Lib.StepSystem
import Bmboot.Monitor.InterruptLine

/-!
# The interrupts of several cores

The distributor is shared, and each monitor acts on it for the payload of its own
core.  Nothing keeps a payload from naming an interrupt that another core uses.
Here the cores run side by side, each start of a monitor, monitor call or restart
being one step: those of different cores do not overlap in time.  Every core is
compared with one that has the distributor to itself.  What becomes of two calls
that do overlap is the subject of another module.
-/

namespace Bmboot

open StepSystem

/-! ## The cores -/

/-- The registers for ids below 32 are the core's own; the others are shared. -/
def Gicd.sharing (own shared : Gicd) : Gicd where
  igroupr i := if i = 0 then own.igroupr i else shared.igroupr i
  enabler i := if i = 0 then own.enabler i else shared.enabler i
  pendr i := if i = 0 then own.pendr i else shared.pendr i
  activer i := if i = 0 then own.activer i else shared.activer i
  ipriorityr id := if id < 32 then own.ipriorityr id else shared.ipriorityr id
  itargetsr id := if id < 32 then own.itargetsr id else shared.itargetsr id
  icfgr i := if i < 2 then own.icfgr i else shared.icfgr i

/-- A monitor starts on a core that has come out of reset, or acts. -/
inductive CoreAction
  | boot
  | act (a : InterruptAction)

namespace CoreAction

def apply (cpu : DomainIndex) (irq : Interrupts) : CoreAction → Interrupts
  | .boot => Interrupts.setupInterrupts cpu irq
  | .act a => a.act cpu irq

/-- The action is one of a core that has been started, or has not. -/
def Possible (started : Bool) : CoreAction → Prop
  | .boot => started = false
  | .act a => started = true ∧ a.Defined

instance (started : Bool) (a : CoreAction) : Decidable (a.Possible started) := by
  cases a <;> unfold Possible <;> infer_instance

end CoreAction

/-- A core's registers and record, and what they would be if there were no other
cores. -/
structure CoreInterrupts where
  started : Bool
  irq : Interrupts
  alone : Interrupts

/-- The cores with the distributor they share. -/
structure Cores where
  gicd : Gicd
  core : DomainIndex → CoreInterrupts

namespace Cores

/-- No monitor has been started; the distributor is as other software has left
it. -/
def off (gicd : Gicd) : Cores where
  gicd := gicd
  core := fun _ => { started := false, irq := .reset, alone := .reset }

/-- What a core sees. -/
def seen (s : Cores) (cpu : DomainIndex) : Interrupts :=
  { (s.core cpu).irq with gicd := (s.core cpu).irq.gicd.sharing s.gicd }

/-- One core does all that its action does before another one goes on. -/
def step (s : Cores) : DomainIndex × CoreAction → Option Cores
  | (cpu, a) =>
      if a.Possible (s.core cpu).started then
        some
          { gicd := (a.apply cpu (s.seen cpu)).gicd
            core := Function.update s.core cpu
              { started := true
                irq := a.apply cpu (s.seen cpu)
                alone := a.apply cpu (s.core cpu).alone } }
      else none

end Cores

/-! ## Interrupts one by one -/

namespace InterruptLine

def apply (cpu : DomainIndex) (id : ℤ) (l : InterruptLine) :
    CoreAction → InterruptLine
  | .boot => l.setup cpu id
  | .act a => l.act cpu id a

/-- The core's payload has configured the interrupt, or the monitor has. -/
def Needed (cpu : DomainIndex) (id : ℤ) (l : InterruptLine) : Prop :=
  l.recorded = true ∨ id = cpu.ipiInterruptId

/-- The core sees the interrupt configured as it has configured it, and enabled
if it has enabled it. -/
structure Kept (cpu : DomainIndex) (id : ℤ) (seen alone : InterruptLine) :
    Prop where
  enabled : alone.config.enabled = true → seen.config.enabled = true
  configured : alone.Needed cpu id →
    { seen.config with enabled := true } = { alone.config with enabled := true }

/-- The action of another core, by which the interrupt is recorded if `recorded`,
takes it away: it is configured, disabled though the core has enabled it, or set
up as the kill interrupt. -/
def TakenBy (cpu : DomainIndex) (id : ℤ) (alone : InterruptLine)
    (other : DomainIndex) (recorded : Bool) : CoreAction → Prop
  | .boot => id = other.ipiInterruptId ∧ alone.Needed cpu id
  | .act (.configure id' priority) =>
      (PayloadPriority priority ∧ 16 ≤ id' ∧ id = id') ∧ alone.Needed cpu id
  | .act (.enable _) => False
  | .act (.disable id') => id = id' ∧ alone.config.enabled = true
  | .act .restart =>
      if id = other.ipiInterruptId then alone.Needed cpu id
      else recorded = true ∧ alone.config.enabled = true

end InterruptLine

theorem CoreAction.line_apply
    {cpu : DomainIndex} {irq : Interrupts} {started : Bool} {a : CoreAction}
    (ha : a.Possible started) {id : ℤ} (hid : Interrupts.UserInterrupt id) :
    (a.apply cpu irq).line id = (irq.line id).apply cpu id a := by
  cases a with
  | boot => exact irq.line_setupInterrupts cpu hid
  | act a => exact irq.line_act cpu ha.2 hid

namespace Cores

section Views

variable {s : Cores} {cpu other : DomainIndex} {id : ℤ}

theorem tdiv_eq_zero_iff (hid : 0 ≤ id) : id.tdiv 32 = 0 ↔ id < 32 := by
  rw [Int.tdiv_eq_ediv_of_nonneg hid]
  omega

theorem config_of_sharing (irq : Interrupts) {own shared : Gicd}
    (hirq : irq.gicd = own.sharing shared) (hid : 0 ≤ id) :
    irq.config id =
      if id < 32 then { irq with gicd := own }.config id
      else { irq with gicd := shared }.config id := by
  have hword := tdiv_eq_zero_iff hid
  simp only [Interrupts.config, Gicd.enabled, Gicd.inGroup1, RegisterBank.bit, hirq,
    Gicd.sharing, hword]
  split <;> rfl

/-- A core's own registers. -/
theorem config_seen_of_lt (hid : 0 ≤ id) (hlt : id < 32) :
    (s.seen cpu).config id = (s.core cpu).irq.config id := by
  rw [config_of_sharing _ rfl hid, if_pos hlt]
  rfl

/-- All cores see the shared registers alike. -/
theorem config_seen_of_ge (cpu other : DomainIndex) (hge : 32 ≤ id) :
    (s.seen cpu).config id = (s.seen other).config id := by
  have hid : 0 ≤ id := by omega
  rw [config_of_sharing (s.seen cpu) rfl hid, if_neg (Int.not_lt.mpr hge),
    config_of_sharing (s.seen other) rfl hid, if_neg (Int.not_lt.mpr hge)]
  rfl

end Views

/-! ## What a step does -/

section Step

variable {s t : Cores} {cpu other : DomainIndex} {a : CoreAction} {id : ℤ}

/-- The action is possible, and the state is known. -/
theorem step_eq_some (h : s.step (cpu, a) = some t) :
    a.Possible (s.core cpu).started ∧
      t.gicd = (a.apply cpu (s.seen cpu)).gicd ∧
      t.core = Function.update s.core cpu
        { started := true
          irq := a.apply cpu (s.seen cpu)
          alone := a.apply cpu (s.core cpu).alone } := by
  obtain ⟨hpossible, heq⟩ := Option.ite_none_right_eq_some.mp h
  obtain rfl := Option.some.inj heq
  exact ⟨hpossible, rfl, rfl⟩

theorem core_of_ne (h : s.step (cpu, a) = some t) (hne : other ≠ cpu) :
    t.core other = s.core other := by
  obtain ⟨-, -, hcore⟩ := step_eq_some h
  rw [hcore, Function.update_of_ne hne]

theorem started_self (h : s.step (cpu, a) = some t) :
    (t.core cpu).started = true := by
  obtain ⟨-, -, hcore⟩ := step_eq_some h
  rw [hcore, Function.update_self]

/-- The core that acts, for each interrupt. -/
theorem line_seen_self (h : s.step (cpu, a) = some t)
    (hid : Interrupts.UserInterrupt id) :
    (t.seen cpu).line id = ((s.seen cpu).line id).apply cpu id a := by
  obtain ⟨hpossible, hgicd, hcore⟩ := step_eq_some h
  have hirq : (t.core cpu).irq = a.apply cpu (s.seen cpu) := by
    rw [hcore, Function.update_self]
  have hconfig : (t.seen cpu).config id = (a.apply cpu (s.seen cpu)).config id := by
    rw [config_of_sharing _ rfl hid.nonneg, hgicd, ← hirq]
    exact ite_self _
  rw [← CoreAction.line_apply hpossible hid, Interrupts.line, hconfig, ← hirq]
  rfl

theorem line_alone_self (h : s.step (cpu, a) = some t)
    (hid : Interrupts.UserInterrupt id) :
    (t.core cpu).alone.line id =
      ((s.core cpu).alone.line id).apply cpu id a := by
  obtain ⟨hpossible, -, hcore⟩ := step_eq_some h
  rw [hcore, Function.update_self]
  exact CoreAction.line_apply hpossible hid

/-- The record of another core is not touched. -/
theorem recorded_of_ne (h : s.step (cpu, a) = some t) (hne : other ≠ cpu) :
    (t.seen other).recorded id = (s.seen other).recorded id := by
  have hcore := core_of_ne h hne
  have hsame : ∀ u : Cores, (u.seen other).recorded id =
      (u.core other).irq.recorded id := fun _ => rfl
  rw [hsame, hsame, hcore]

theorem config_of_ne_of_lt (h : s.step (cpu, a) = some t) (hne : other ≠ cpu)
    (hid : 0 ≤ id) (hlt : id < 32) :
    (t.seen other).config id = (s.seen other).config id := by
  rw [config_seen_of_lt hid hlt, config_seen_of_lt hid hlt, core_of_ne h hne]

/-- All cores see what the action does to a shared interrupt. -/
theorem config_of_ge (h : s.step (cpu, a) = some t)
    (hid : Interrupts.UserInterrupt id) (hge : 32 ≤ id) :
    (t.seen other).config id = (((s.seen cpu).line id).apply cpu id a).config := by
  rw [config_seen_of_ge other cpu hge, ← line_seen_self h hid]
  rfl

theorem line_of_ne_of_ge (h : s.step (cpu, a) = some t) (hne : other ≠ cpu)
    (hid : Interrupts.UserInterrupt id) (hge : 32 ≤ id) :
    (t.seen other).line id =
      { config := (((s.seen cpu).line id).apply cpu id a).config
        recorded := (s.seen other).recorded id } := by
  rw [Interrupts.line, recorded_of_ne h hne, config_of_ge h hid hge]

/-- A core's own registers are not touched by another one. -/
theorem line_of_ne_of_lt (h : s.step (cpu, a) = some t) (hne : other ≠ cpu)
    (hid : 0 ≤ id) (hlt : id < 32) :
    (t.seen other).line id = (s.seen other).line id := by
  rw [Interrupts.line, recorded_of_ne h hne, config_of_ne_of_lt h hne hid hlt,
    Interrupts.line]

end Step

/-! ## What always holds -/

/-- The records agree, and so do the cores' own registers; what a core needs is
routed to it. -/
structure Inv (s : Cores) : Prop where
  recorded : ∀ cpu id, Interrupts.UserInterrupt id →
    (s.seen cpu).recorded id = (s.core cpu).alone.recorded id
  own : ∀ cpu id, Interrupts.UserInterrupt id → id < 32 →
    (s.seen cpu).config id = (s.core cpu).alone.config id
  targets : ∀ cpu id, Interrupts.UserInterrupt id → 32 ≤ id →
    (s.core cpu).started = true → ((s.core cpu).alone.line id).Needed cpu id →
      ((s.core cpu).alone.config id).targets = 1#8 <<< cpu.cpuIndex
  off : ∀ cpu, (s.core cpu).started = false → (s.core cpu).alone = .reset

theorem inv_off (gicd : Gicd) : (off gicd).Inv where
  recorded := fun _ _ _ => rfl
  own := fun _ _ hid hlt => config_seen_of_lt hid.nonneg hlt
  targets := fun _ _ _ _ hstarted => absurd hstarted Bool.false_ne_true
  off := fun _ _ => rfl

end Cores

namespace InterruptLine

variable {cpu : DomainIndex} {id : ℤ} {l seen alone : InterruptLine}

/-- A monitor routes its own interrupt to its core. -/
theorem targets_setup (hrecorded : l.recorded = false)
    (h : (l.setup cpu id).Needed cpu id) :
    (l.setup cpu id).config.targets = 1#8 <<< cpu.cpuIndex := by
  rw [setup] at h ⊢
  split at h
  next heq => rw [if_pos heq]
  next hne =>
    rcases h with hrec | heq
    · rw [hrecorded] at hrec
      exact absurd hrec (by decide)
    · exact absurd heq hne

/-- What a core needs is routed to it, after its own actions as before. -/
theorem targets_act {a : InterruptAction} (hge : 32 ≤ id)
    (hl : l.Needed cpu id → l.config.targets = 1#8 <<< cpu.cpuIndex)
    (h : (l.act cpu id a).Needed cpu id) :
    (l.act cpu id a).config.targets = 1#8 <<< cpu.cpuIndex := by
  cases a with
  | configure id' priority =>
      simp only [act] at h ⊢
      split at h
      next haccepted =>
        have hge' : 32 ≤ id' := haccepted.2.2 ▸ hge
        rw [if_pos haccepted]
        exact if_pos hge'
      next hrefused =>
        rw [if_neg hrefused]
        exact hl h
  | enable id' => exact hl h
  | disable id' => exact hl h
  | restart => exact targets_setup rfl h

/-- The record does not depend on the distributor. -/
theorem recorded_apply_congr {l' : InterruptLine} (h : l.recorded = l'.recorded)
    (a : CoreAction) :
    (l.apply cpu id a).recorded = (l'.apply cpu id a).recorded := by
  have hsetup : ∀ k k' : InterruptLine, k.recorded = k'.recorded →
      (k.setup cpu id).recorded = (k'.setup cpu id).recorded := by
    intro k k' hk
    rw [setup, setup]
    split
    · rfl
    · exact hk
  cases a with
  | boot => exact hsetup l l' h
  | act a =>
      cases a with
      | configure id' priority =>
          simp only [apply, act]
          split
          · rfl
          · exact h
      | enable id' => exact h
      | disable id' => exact h
      | restart => exact hsetup (l.teardown id) (l'.teardown id) rfl

/-- A core's own action keeps what it needs. -/
theorem Kept.act {a : InterruptAction} (hkept : Kept cpu id seen alone)
    (hrecorded : seen.recorded = alone.recorded)
    (hown : id < 32 → seen.config = alone.config) :
    Kept cpu id (seen.act cpu id a) (alone.act cpu id a) := by
  cases a with
  | configure id' priority =>
      simp only [InterruptLine.act]
      split
      next haccepted =>
        refine ⟨hkept.enabled, fun _ => ?_⟩
        by_cases hge : 32 ≤ id'
        · simp only [if_pos hge]
        · have hlt : id < 32 := haccepted.2.2 ▸ Int.not_le.mp hge
          simp only [if_neg hge, hown hlt]
      next => exact hkept
  | enable id' =>
      refine ⟨?_, hkept.configured⟩
      simp only [InterruptLine.act, Bool.or_eq_true]
      exact Or.imp_left hkept.enabled
  | disable id' =>
      refine ⟨?_, hkept.configured⟩
      simp only [InterruptLine.act, Bool.and_eq_true]
      exact And.imp_left hkept.enabled
  | restart =>
      simp only [InterruptLine.act, setup]
      split
      next => exact ⟨fun h => h, fun _ => rfl⟩
      next hne =>
        refine ⟨?_, ?_⟩
        · simp only [teardown, hrecorded, Bool.and_eq_true]
          exact And.imp_left hkept.enabled
        · rintro (hrec | heq)
          · exact absurd hrec (by simp [teardown])
          · exact absurd heq hne

/-- A monitor that starts sets up all that it needs. -/
theorem kept_setup (henabled : alone.config.enabled = false)
    (hrecorded : alone.recorded = false) :
    Kept cpu id (seen.setup cpu id) (alone.setup cpu id) := by
  simp only [setup]
  split
  next => exact ⟨fun h => h, fun _ => rfl⟩
  next hne =>
    refine ⟨fun h => ?_, ?_⟩
    · rw [henabled] at h
      exact absurd h (by decide)
    · rintro (hrec | heq)
      · rw [hrecorded] at hrec
        exact absurd hrec (by decide)
      · exact absurd heq hne

theorem one_shiftLeft_cpuIndex_ne {other : DomainIndex} (hne : other ≠ cpu) :
    1#8 <<< other.cpuIndex ≠ 1#8 <<< cpu.cpuIndex := by
  revert hne
  cases other <;> cases cpu <;> decide

/-- Another core's set-up of an interrupt takes it away from one that needs it. -/
theorem kept_routed_iff {other : DomainIndex} {l : InterruptLine} (hne : other ≠ cpu)
    (htargets : alone.Needed cpu id →
      alone.config.targets = 1#8 <<< cpu.cpuIndex)
    (hl : l.config.targets = 1#8 <<< other.cpuIndex)
    (henabled : alone.config.enabled = true → l.config.enabled = true) :
    Kept cpu id l alone ↔ ¬alone.Needed cpu id := by
  constructor
  · intro hkept hneeded
    have hsame := congrArg Interrupts.Config.targets (hkept.configured hneeded)
    simp only [hl, htargets hneeded] at hsame
    exact one_shiftLeft_cpuIndex_ne hne hsame
  · intro hnot
    exact ⟨henabled, fun hneeded => absurd hneeded hnot⟩

/-- Another core's action keeps what a core needs exactly if it does not take it
away. -/
theorem kept_apply_iff {other : DomainIndex} {a : CoreAction} {l : InterruptLine}
    (hne : other ≠ cpu) (hge : 32 ≤ id) (hl : l.config = seen.config)
    (htargets : alone.Needed cpu id →
      alone.config.targets = 1#8 <<< cpu.cpuIndex)
    (hkept : Kept cpu id seen alone) (recorded : Bool) :
    Kept cpu id { config := (l.apply other id a).config, recorded := recorded }
        alone ↔
      ¬alone.TakenBy cpu id other l.recorded a := by
  have hsame : Kept cpu id { config := l.config, recorded := recorded } alone := by
    rw [hl]
    exact ⟨hkept.enabled, hkept.configured⟩
  cases a with
  | boot =>
      simp only [apply, setup, TakenBy]
      split
      next heq =>
        rw [kept_routed_iff hne htargets rfl fun _ => rfl]
        exact not_congr (and_iff_right heq).symm
      next hother => exact iff_of_true hsame fun h => hother h.1
  | act a =>
      cases a with
      | configure id' priority =>
          simp only [apply, InterruptLine.act, TakenBy]
          split
          next haccepted =>
            have hge' : 32 ≤ id' := haccepted.2.2 ▸ hge
            refine (kept_routed_iff hne htargets ?_ ?_).trans
              (not_congr (and_iff_right haccepted)).symm
            · exact if_pos hge'
            · exact hsame.enabled
          next hrefused => exact iff_of_true hsame fun h => hrefused h.1
      | enable id' =>
          refine iff_of_true ⟨fun h => ?_, hsame.configured⟩ fun h => h
          simp only [apply, InterruptLine.act, Bool.or_eq_true]
          exact .inl (hsame.enabled h)
      | disable id' =>
          simp only [apply, InterruptLine.act, TakenBy]
          constructor
          · rintro hkept' ⟨heq, henabled⟩
            have h := hkept'.enabled henabled
            simp [heq] at h
          · intro hnot
            refine ⟨fun henabled => ?_, hsame.configured⟩
            have hother : id ≠ id' := fun heq => hnot ⟨heq, henabled⟩
            simp only [hother, decide_false, Bool.not_false, Bool.and_true]
            exact hsame.enabled henabled
      | restart =>
          simp only [apply, InterruptLine.act, setup, TakenBy]
          split
          next heq => exact kept_routed_iff hne htargets rfl fun _ => rfl
          next hother =>
            have htimer : id ≠ cntpnsInterruptId := by
              rw [cntpnsInterruptId]
              omega
            constructor
            · rintro hkept' ⟨hrec, henabled⟩
              have h := hkept'.enabled henabled
              simp [teardown, hrec] at h
            · intro hnot
              refine ⟨fun henabled => ?_, hsame.configured⟩
              have hrec : l.recorded = false :=
                Bool.eq_false_of_not_eq_true fun hrec => hnot ⟨hrec, henabled⟩
              simp only [teardown, hrec, htimer, decide_false, Bool.or_false,
                Bool.not_false, Bool.and_true]
              exact hsame.enabled henabled

end InterruptLine

namespace Cores

section Runs

variable {s t : Cores} {cpu : DomainIndex} {a : CoreAction}

theorem inv_step (hs : s.Inv) (h : s.step (cpu, a) = some t) : t.Inv := by
  have hline : ∀ id, Interrupts.UserInterrupt id →
      (t.core cpu).alone.line id =
        ((s.core cpu).alone.line id).apply cpu id a :=
    fun id hid => line_alone_self h hid
  refine ⟨?_, ?_, ?_, ?_⟩
  · intro other id hid
    by_cases hother : other = cpu
    · subst hother
      have hseen := congrArg InterruptLine.recorded (line_seen_self h hid)
      have halone := congrArg InterruptLine.recorded (hline id hid)
      have hbefore : ((s.seen other).line id).recorded =
          ((s.core other).alone.line id).recorded := hs.recorded other id hid
      exact hseen.trans
        ((InterruptLine.recorded_apply_congr hbefore a).trans halone.symm)
    · rw [recorded_of_ne h hother, core_of_ne h hother]
      exact hs.recorded other id hid
  · intro other id hid hlt
    by_cases hother : other = cpu
    · subst hother
      have hsame : (s.seen other).line id = (s.core other).alone.line id := by
        rw [Interrupts.line, hs.own other id hid hlt, hs.recorded other id hid,
          Interrupts.line]
      have hafter : (t.seen other).line id = (t.core other).alone.line id := by
        rw [line_seen_self h hid, hline id hid, hsame]
      exact congrArg InterruptLine.config hafter
    · rw [config_of_ne_of_lt h hother hid.nonneg hlt, core_of_ne h hother]
      exact hs.own other id hid hlt
  · intro other id hid hge hstarted hneeded
    by_cases hother : other = cpu
    · subst hother
      rw [hline id hid] at hneeded
      have htargets : (((s.core other).alone.line id).apply other id
          a).config.targets = 1#8 <<< other.cpuIndex := by
        obtain ⟨hpossible, -, -⟩ := step_eq_some h
        cases a with
        | boot =>
            rw [hs.off other hpossible] at hneeded ⊢
            exact InterruptLine.targets_setup rfl hneeded
        | act a =>
            exact InterruptLine.targets_act hge
              (hs.targets other id hid hge hpossible.1) hneeded
      rw [← hline id hid] at htargets
      exact htargets
    · rw [core_of_ne h hother] at hstarted hneeded ⊢
      exact hs.targets other id hid hge hstarted hneeded
  · intro other hoff
    by_cases hother : other = cpu
    · subst hother
      rw [started_self h] at hoff
      exact absurd hoff (by decide)
    · rw [core_of_ne h hother] at hoff ⊢
      exact hs.off other hoff

/-- Every monitor that runs sees what its payload and itself have configured and
enabled, as if there were no other cores. -/
def Isolated (s : Cores) : Prop :=
  ∀ cpu, (s.core cpu).started = true → ∀ id, Interrupts.UserInterrupt id →
    InterruptLine.Kept cpu id ((s.seen cpu).line id) ((s.core cpu).alone.line id)

/-- The action of a core takes no shared interrupt away from another one. -/
def TakesNothing (s : Cores) : DomainIndex × CoreAction → Prop
  | (cpu, a) =>
      ∀ other, other ≠ cpu → (s.core other).started = true →
        ∀ id, Interrupts.UserInterrupt id → 32 ≤ id →
          ¬((s.core other).alone.line id).TakenBy other id cpu
            ((s.core cpu).irq.recorded id) a

/-- What an action does to the interrupts of another core. -/
theorem kept_of_ne_iff {other : DomainIndex} {id : ℤ} (hs : s.Inv)
    (hiso : s.Isolated) (h : s.step (cpu, a) = some t) (hne : other ≠ cpu)
    (hstarted : (s.core other).started = true)
    (hid : Interrupts.UserInterrupt id) (hge : 32 ≤ id) :
    InterruptLine.Kept other id ((t.seen other).line id)
        ((t.core other).alone.line id) ↔
      ¬((s.core other).alone.line id).TakenBy other id cpu
        ((s.core cpu).irq.recorded id) a := by
  have hsame : ((s.seen cpu).line id).config = ((s.seen other).line id).config :=
    config_seen_of_ge _ _ hge
  rw [line_of_ne_of_ge h hne hid hge, core_of_ne h hne]
  exact InterruptLine.kept_apply_iff hne.symm hge hsame
    (hs.targets other id hid hge hstarted) (hiso other hstarted id hid) _

theorem enabled_reset (id : ℤ) : Interrupts.reset.gicd.enabled id = false := by
  simp [Interrupts.reset, Gicd.enabled, RegisterBank.bit]

theorem isolated_step (hs : s.Inv) (hiso : s.Isolated)
    (h : s.step (cpu, a) = some t) :
    t.Isolated ↔ s.TakesNothing (cpu, a) := by
  constructor
  · intro ht other hne hstarted id hid hge
    have hstarted' : (t.core other).started = true :=
      (congrArg CoreInterrupts.started (core_of_ne h hne)).trans hstarted
    exact (kept_of_ne_iff hs hiso h hne hstarted hid hge).mp
      (ht other hstarted' id hid)
  · intro htakes other hstarted id hid
    by_cases hne : other = cpu
    · subst hne
      rw [line_seen_self h hid, line_alone_self h hid]
      obtain ⟨hpossible, -, -⟩ := step_eq_some h
      cases a with
      | boot =>
          rw [hs.off other hpossible]
          exact InterruptLine.kept_setup (enabled_reset id) rfl
      | act a =>
          exact (hiso other hpossible.1 id hid).act (hs.recorded other id hid)
            (hs.own other id hid)
    · rw [core_of_ne h hne] at hstarted
      by_cases hge : 32 ≤ id
      · exact (kept_of_ne_iff hs hiso h hne hstarted hid hge).mpr
          (htakes other hne hstarted id hid hge)
      · rw [line_of_ne_of_lt h hne hid.nonneg (Int.not_le.mp hge), core_of_ne h hne]
        exact hiso other hstarted id hid

end Runs

end Cores

/-- Where the actions of different cores do not overlap, each core keeps what its
monitor and its payloads have configured and enabled exactly as long as no core
configures, disables or tears down a shared interrupt that another one has, or
starts while another one has its kill interrupt. -/
theorem cores_isolated_iff
    (gicd : Gicd) (schedule : List (DomainIndex × CoreAction)) :
    Throughout Cores.step (.off gicd) schedule Cores.Isolated ↔
      EachStep Cores.step (.off gicd) schedule Cores.TakesNothing := by
  have hstep : ∀ (s : Cores) (a : DomainIndex × CoreAction) (t : Cores),
      s.Inv → s.step a = some t → t.Inv :=
    fun _ _ _ hs h => Cores.inv_step hs h
  have hexact : ∀ (s : Cores) (a : DomainIndex × CoreAction) (t : Cores),
      s.Inv → s.Isolated → s.step a = some t →
        (t.Isolated ↔ s.TakesNothing a) :=
    fun _ _ _ hs hiso h => Cores.isolated_step hs hiso h
  exact throughout_iff_eachStep hstep hexact (Cores.inv_off gicd)
    (fun _ hstarted => absurd hstarted Bool.false_ne_true) schedule

/-! ## The kill interrupts -/

/-- The set-up of the interrupt that kills the payload of a core. -/
def killConfig (cpu : DomainIndex) : Interrupts.Config where
  enabled := true
  inGroup1 := false
  targets := 1#8 <<< cpu.cpuIndex
  priority := 0x00

/-- The action of a core leaves the kill interrupt of another one, or its own, as
it is; `recorded` tells whether it is in the record of the core that acts. -/
def CoreAction.SparesKill (cpu other : DomainIndex) (recorded : Bool) :
    CoreAction → Prop
  | .boot | .act (.enable _) => True
  | .act (.configure id priority) =>
      ¬(PayloadPriority priority ∧ id = other.ipiInterruptId)
  | .act (.disable id) => id ≠ other.ipiInterruptId
  | .act .restart => other = cpu ∨ recorded = false

theorem InterruptLine.config_apply_eq_killConfig_iff
    {cpu other : DomainIndex} {l : InterruptLine} {a : CoreAction}
    (hl : l.config = killConfig other) (hboot : a = .boot → other ≠ cpu) :
    (l.apply cpu other.ipiInterruptId a).config = killConfig other ↔
      a.SparesKill cpu other l.recorded := by
  have hipi : other.ipiInterruptId = cpu.ipiInterruptId ↔ other = cpu := by
    cases other <;> cases cpu <;> decide
  have hge : 16 ≤ other.ipiInterruptId := by
    cases other <;> decide
  have htimer : other.ipiInterruptId ≠ cntpnsInterruptId := by
    cases other <;> decide
  cases a with
  | boot =>
      refine iff_of_true ?_ trivial
      rw [apply, setup, if_neg (mt hipi.mp (hboot rfl))]
      exact hl
  | act a =>
      cases a with
      | configure id priority =>
          simp only [apply, act, CoreAction.SparesKill]
          split
          next haccepted =>
            refine iff_of_false ?_ fun h => h ⟨haccepted.1, haccepted.2.2.symm⟩
            intro heq
            have hgroup : true = false := congrArg Interrupts.Config.inGroup1 heq
            exact absurd hgroup (by decide)
          next hrefused =>
            refine iff_of_true hl ?_
            rintro ⟨hp, rfl⟩
            exact hrefused ⟨hp, hge, rfl⟩
      | enable id =>
          refine iff_of_true ?_ trivial
          simp only [apply, act, hl]
          rfl
      | disable id =>
          simp only [apply, act, hl, CoreAction.SparesKill, killConfig,
            Interrupts.Config.mk.injEq, and_true, Bool.true_and,
            Bool.not_eq_true', decide_eq_false_iff_not]
          exact ne_comm
      | restart =>
          simp only [apply, act, setup, CoreAction.SparesKill]
          by_cases hother : other = cpu
          · rw [if_pos (hipi.mpr hother), hother]
            exact iff_of_true rfl (.inl rfl)
          · rw [if_neg (mt hipi.mp hother), or_iff_right hother]
            simp [teardown, hl, killConfig, htimer]

namespace Cores

/-- The kill interrupt of every monitor that runs is as the monitor has set it
up. -/
def Killable (s : Cores) : Prop :=
  ∀ cpu, (s.core cpu).started = true → (s.seen cpu).IpiConfigured cpu

/-- The action harms the kill interrupt of no monitor that runs. -/
def SparesKills (s : Cores) : DomainIndex × CoreAction → Prop
  | (cpu, a) =>
      ∀ other, (s.core other).started = true →
        a.SparesKill cpu other ((s.core cpu).irq.recorded other.ipiInterruptId)

theorem killable_step {s t : Cores} {cpu : DomainIndex} {a : CoreAction}
    (hs : s.Killable) (h : s.step (cpu, a) = some t) :
    t.Killable ↔ s.SparesKills (cpu, a) := by
  obtain ⟨hpossible, -, -⟩ := step_eq_some h
  have huser : ∀ other : DomainIndex,
      Interrupts.UserInterrupt other.ipiInterruptId := by
    intro other
    cases other <;> decide
  -- What becomes of the kill interrupt of a core that was running.
  have hiff : ∀ other, (s.core other).started = true →
      ((t.seen other).IpiConfigured other ↔
        a.SparesKill cpu other
          ((s.core cpu).irq.recorded other.ipiInterruptId)) := by
    intro other hstarted
    have hbefore := (Interrupts.ipiConfigured_iff_config other _).mp (hs other hstarted)
    rw [config_seen_of_ge other cpu other.ipiInterruptId_ge] at hbefore
    rw [Interrupts.ipiConfigured_iff_config,
      config_of_ge h (huser other) other.ipiInterruptId_ge]
    refine InterruptLine.config_apply_eq_killConfig_iff
      (l := (s.seen cpu).line other.ipiInterruptId) hbefore ?_
    rintro rfl rfl
    exact absurd (hpossible.symm.trans hstarted) (by decide)
  constructor
  · intro ht other hstarted
    have hstarted' : (t.core other).started = true := by
      by_cases hne : other = cpu
      · exact hne ▸ started_self h
      · rw [core_of_ne h hne]
        exact hstarted
    exact (hiff other hstarted).mp (ht other hstarted')
  · intro hspares other hstarted'
    cases hstarted : (s.core other).started with
    | true => exact (hiff other hstarted).mpr (hspares other hstarted)
    | false =>
        by_cases hne : other = cpu
        · subst hne
          cases a with
          | act a =>
              exact absurd (hpossible.1.symm.trans hstarted) (by decide)
          | boot =>
              rw [Interrupts.ipiConfigured_iff_config,
                config_of_ge h (huser other) other.ipiInterruptId_ge]
              exact congrArg InterruptLine.config (if_pos rfl)
        · rw [core_of_ne h hne] at hstarted'
          exact absurd (hstarted.symm.trans hstarted') (by decide)

end Cores

/-- Where the actions of different cores do not overlap, the kill interrupt of every
core that runs keeps the configuration that its monitor has given it (enabled, in
group 0, routed to the core, with the highest priority) exactly as long as no
payload configures or disables it, and none is killed that had configured the kill
interrupt of another core, be it before that core was started. -/
theorem cores_killable_iff
    (gicd : Gicd) (schedule : List (DomainIndex × CoreAction)) :
    Throughout Cores.step (.off gicd) schedule Cores.Killable ↔
      EachStep Cores.step (.off gicd) schedule Cores.SparesKills := by
  have hexact : ∀ (s : Cores) (a : DomainIndex × CoreAction) (t : Cores),
      True → s.Killable → s.step a = some t →
        (t.Killable ↔ s.SparesKills a) :=
    fun _ _ _ _ hs h => Cores.killable_step hs h
  exact throughout_iff_eachStep (fun _ _ _ _ _ => trivial) hexact trivial
    (fun _ hstarted => absurd hstarted Bool.false_ne_true) schedule

/-- Core 1 configures interrupt 61 before core 2 is started; when its payload is
killed, that of core 2 cannot be killed any more. -/
example :
    (run Cores.step (.off Interrupts.reset.gicd)
      [(.cpu1, .boot), (.cpu1, .act (.configure 61 0x80)), (.cpu2, .boot),
        (.cpu1, .act .restart)]).map
      (fun s => (s.seen .cpu2).gicd.enabled 61) = some false := by
  decide +kernel

end Bmboot
