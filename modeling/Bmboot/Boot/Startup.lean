import Bmboot.Boot.BootCore
import Bmboot.System.State

/-!
# Opening and starting a domain from several processes

`IDomain::open` and `Domain::startup` (`domain.cpp`) of any number of manager
processes on one domain.  Each process keeps the state of the domain that it
has found when it opened it.  Calls do not overlap; between them the rest of
the machine may do anything but move the core in or out of reset.
-/

namespace Bmboot

/-! ## The shared part -/

/-- What the processes share: the reset registers, the monitor memory of the
domain by offset and its communication block. -/
structure Machine where
  apu : Apu
  monitor : ℕ → UInt8
  ipc : IpcBlock

def monitorAddress : DomainIndex → BitVec 64
  | .cpu1 => 0x800000000
  | .cpu2 => 0x800010000
  | .cpu3 => 0x800020000

def monitorSize : ℕ := 0x00010000

/-- `MONITOR_CODE_COOKIE`, least significant byte first. -/
def monitorCodeCookie : List UInt8 := [0xcd, 0xab, 0x50, 0x71]

def cookieOffset : ℕ := monitorSize - monitorCodeCookie.length

def memcpy (mem : ℕ → UInt8) (offset : ℕ) (bytes : List UInt8) : ℕ → UInt8 :=
  fun i => if offset ≤ i then bytes.getD (i - offset) (mem i) else mem i

/-- The cookie of a monitor has been placed in the monitor memory. -/
def Machine.cookieFound (m : Machine) : Bool :=
  (List.range monitorCodeCookie.length).map
    (fun i => m.monitor (cookieOffset + i)) = monitorCodeCookie

/-- The communication block as a startup leaves it. -/
def initialIpc (cntfrq : BitVec 32) : IpcBlock :=
  let ipc := IpcBlock.zero
  { managerToExecutor := { ipc.managerToExecutor with cntfrq := cntfrq }
    executorToManager :=
      { ipc.executorToManager with state := DomainState.invalidState.code } }

/-! ## The calls of one process -/

/-- A process: its handle of `/dev/mem`, whether it has opened the domain, and
its entry of `domain_general_state`. -/
structure ManagerProcess where
  devmem : Bool
  opened : Bool
  generalState : DomainGeneralState

def ManagerProcess.fresh : ManagerProcess where
  devmem := false
  opened := false
  generalState := .inReset

/-- What the operating system lets a call of `open` do. -/
structure OpenEnv where
  devmem : Bool
  ipcMapped : Bool
  codeMapped : Bool
  apuMapped : Bool

/-- `IDomain::open`, with the process it leaves. -/
def openDomain (cpu : DomainIndex) (env : OpenEnv) (m : Machine)
    (p : ManagerProcess) : ManagerProcess × MaybeError :=
  if (p.devmem || env.devmem) = false then (p, some .devMemAccessFailed)
  else
    let p := { p with devmem := true }
    if env.ipcMapped = false then (p, some .mmapFailed)
    else if env.codeMapped = false then (p, some .mmapFailed)
    else
      let generalState :=
        if isCoreInReset env.apuMapped cpu m.apu then
          DomainGeneralState.inReset
        else if m.cookieFound then .monitorStarted
        else .unavailable
      ({ p with generalState := generalState, opened := true }, none)

/-- What a call of `startup` depends on besides the machine and the process:
the configured timer frequency, the monitor image of the library, and the
state words that it reads while it waits. -/
structure StartupEnv where
  config : Option (BitVec 32)
  devmem : Bool
  codeMapped : Bool
  image : List UInt8
  apuMapped : Bool
  polls : ℕ → BitVec 32

/-- `awaitMonitorStartup`: 50 polls for `monitor_ready`. -/
def awaitMonitorStartup (polls : ℕ → BitVec 32) : MaybeError :=
  if (List.range (500 / 10)).any
      fun i => DomainState.ofRaw (polls i) = .monitorReady then
    none
  else some .monitorStartTimedOut

/-- The checks of `startup` before it writes anything, with the timer
frequency if they pass. -/
def startupChecks (env : StartupEnv) (p : ManagerProcess) :
    Except ErrorCode (BitVec 32) :=
  match env.config with
  | none => .error .configurationFileError
  | some cntfrq =>
      if p.generalState ≠ .inReset then .error .badDomainState
      else if (p.devmem || env.devmem) = false then .error .devMemAccessFailed
      else if env.codeMapped = false then .error .mmapFailed
      else if env.image.length > cookieOffset then .error .programTooLarge
      else .ok cntfrq

/-- The monitor memory and the communication block that `startup` writes. -/
def startupWrites (env : StartupEnv) (cntfrq : BitVec 32) (m : Machine) :
    Machine :=
  { m with
    monitor := memcpy (memcpy m.monitor 0 env.image) cookieOffset
      monitorCodeCookie
    ipc := initialIpc cntfrq }

structure StartupResult where
  machine : Machine
  process : ManagerProcess
  error : MaybeError

def startup (cpu : DomainIndex) (env : StartupEnv) (m : Machine)
    (p : ManagerProcess) : StartupResult :=
  match startupChecks env p with
  | .error e => { machine := m, process := p, error := some e }
  | .ok cntfrq =>
      let p := { p with devmem := true }
      let m := startupWrites env cntfrq m
      match bootCore env.apuMapped cpu (monitorAddress cpu) m.apu with
      | (apu, some e) =>
          { machine := { m with apu := apu }, process := p, error := some e }
      | (apu, none) =>
          { machine := { m with apu := apu }
            process := { p with generalState := .monitorStarted }
            error := awaitMonitorStartup env.polls }

/-- Whatever the core is doing, the call reports an error and leaves monitor
memory and communication block alone. -/
structure StartupResult.Clean (r : StartupResult) (m : Machine) : Prop where
  error : r.error ≠ none
  monitor : r.machine.monitor = m.monitor
  ipc : r.machine.ipc = m.ipc

/-- A startup of a domain whose core is not in reset is refused cleanly. -/
def StartupHarmless (cpu : DomainIndex) (env : StartupEnv) (m : Machine)
    (p : ManagerProcess) : Prop :=
  m.apu.coreInReset cpu = false → (startup cpu env m p).Clean m

/-- What `startup` would write is there already. -/
def WritesNothing (env : StartupEnv) (m : Machine) : Prop :=
  ∀ cntfrq, env.config = some cntfrq →
    (startupWrites env cntfrq m).monitor = m.monitor ∧
      (startupWrites env cntfrq m).ipc = m.ipc

/-- The call cannot get as far as its writes, whatever the process knows. -/
def FailsEarly (env : StartupEnv) (p : ManagerProcess) : Prop :=
  env.config = none ∨ (p.devmem || env.devmem) = false ∨
    env.codeMapped = false ∨ env.image.length > cookieOffset

/-- The process knows when the core has left reset. -/
def Informed (cpu : DomainIndex) (m : Machine) (p : ManagerProcess) : Prop :=
  p.generalState = .inReset → m.apu.coreInReset cpu = true

section Calls

variable {cpu : DomainIndex} {env : StartupEnv} {m : Machine}
  {p : ManagerProcess}

theorem startupChecks_eq_ok_iff {cntfrq : BitVec 32} :
    startupChecks env p = .ok cntfrq ↔
      env.config = some cntfrq ∧ p.generalState = .inReset ∧
        ¬FailsEarly env p := by
  cases hconfig : env.config with
  | none => simp [startupChecks, hconfig]
  | some f =>
      simp only [startupChecks, hconfig, FailsEarly]
      split_ifs with hstate hdevmem hcode hlength
      · simp [hstate]
      · simp [hdevmem]
      · simp [hcode]
      · simp [hlength]
      · rw [Classical.not_not] at hstate
        simp [hstate, hdevmem, hcode, hlength]

theorem startup_of_checks_error {e : ErrorCode}
    (h : startupChecks env p = .error e) :
    startup cpu env m p = { machine := m, process := p, error := some e } := by
  simp [startup, h]

theorem bootCore_of_not_inReset
    (mapped : Bool) (address : BitVec 64) {apu : Apu}
    (h : apu.coreInReset cpu = false) :
    ∃ e, bootCore mapped cpu address apu = (apu, some e) := by
  have hzero : apu.rstFpdApu &&& cpu.resetMask = 0 := by
    simpa [Apu.coreInReset] using h
  simp only [bootCore]
  split_ifs
  · exact ⟨_, rfl⟩
  · exact ⟨_, rfl⟩

/-- With the core running, a startup that passes its checks writes and is then
refused by `bootCore`. -/
theorem startup_of_not_inReset {cntfrq : BitVec 32}
    (hchecks : startupChecks env p = .ok cntfrq)
    (h : m.apu.coreInReset cpu = false) :
    (startup cpu env m p).machine = startupWrites env cntfrq m ∧
      (startup cpu env m p).error ≠ none := by
  obtain ⟨e, he⟩ := bootCore_of_not_inReset env.apuMapped (monitorAddress cpu) h
  have hboot : bootCore env.apuMapped cpu (monitorAddress cpu)
      (startupWrites env cntfrq m).apu = (m.apu, some e) := he
  simp only [startup, hchecks, hboot]
  exact ⟨rfl, nofun⟩

/-- The exact condition for one call. -/
theorem startupHarmless_iff :
    StartupHarmless cpu env m p ↔
      Informed cpu m p ∨ FailsEarly env p ∨ WritesNothing env m := by
  constructor
  · intro hharmless
    by_contra hnot
    simp only [not_or] at hnot
    obtain ⟨hinformed, hearly, hwrites⟩ := hnot
    obtain ⟨hstate, hreset⟩ := Classical.not_imp.mp hinformed
    rw [Bool.not_eq_true] at hreset
    apply hwrites
    intro cntfrq hconfig
    have hchecks := startupChecks_eq_ok_iff.mpr ⟨hconfig, hstate, hearly⟩
    have hclean := hharmless hreset
    rw [← (startup_of_not_inReset hchecks hreset).1]
    exact ⟨hclean.monitor, hclean.ipc⟩
  · intro hcond hreset
    cases hchecks : startupChecks env p with
    | error e =>
        rw [startup_of_checks_error hchecks]
        exact ⟨nofun, rfl, rfl⟩
    | ok cntfrq =>
        obtain ⟨hconfig, hstate, hearly⟩ := startupChecks_eq_ok_iff.mp hchecks
        rcases hcond with hinformed | hfails | hwrites
        · rw [hinformed hstate] at hreset
          exact absurd hreset.symm Bool.false_ne_true
        · exact absurd hfails hearly
        · obtain ⟨hmachine, herror⟩ := startup_of_not_inReset hchecks hreset
          obtain ⟨hmonitor, hipc⟩ := hwrites cntfrq hconfig
          refine ⟨herror, ?_, ?_⟩
          · rw [hmachine, hmonitor]
          · rw [hmachine, hipc]

end Calls

/-! ## Sequences of calls -/

/-- The machine and the manager processes. -/
structure World (P : Type*) where
  machine : Machine
  process : P → ManagerProcess

/-- One call of a process, or whatever else happens to the machine between
calls. -/
inductive WorldAction (P : Type*)
  | openDomain (p : P) (env : OpenEnv)
  | startup (p : P) (env : StartupEnv)
  | other (m : Machine)

namespace World

variable {P : Type*}

/-- A process that has not opened the domain has nothing to call `startup`
on. -/
def step [DecidableEq P] (cpu : DomainIndex) (w : World P) : WorldAction P → Option (World P)
  | .openDomain p env =>
      some { w with
        process := Function.update w.process p
          (Bmboot.openDomain cpu env w.machine (w.process p)).1 }
  | .startup p env =>
      if (w.process p).opened then
        let r := Bmboot.startup cpu env w.machine (w.process p)
        some { machine := r.machine
               process := Function.update w.process p r.process }
      else none
  | .other m =>
      if m.apu.rstFpdApu &&& cpu.resetMask =
          w.machine.apu.rstFpdApu &&& cpu.resetMask then
        some { w with machine := m }
      else none

/-- The startup that is called, if one is, does no damage. -/
def Harmless (cpu : DomainIndex) (w : World P) : WorldAction P → Prop
  | .startup p env => StartupHarmless cpu env w.machine (w.process p)
  | .openDomain _ _ | .other _ => True

/-- The process that calls `startup` knows when the core has left reset, or it
fails before it writes, or it writes what is there. -/
def Guarded (cpu : DomainIndex) (w : World P) : WorldAction P → Prop
  | .startup p env =>
      Informed cpu w.machine (w.process p) ∨ FailsEarly env (w.process p) ∨
        WritesNothing env w.machine
  | .openDomain _ _ | .other _ => True

theorem harmless_iff_guarded
    (cpu : DomainIndex) (w : World P) (a : WorldAction P) :
    w.Harmless cpu a ↔ w.Guarded cpu a := by
  cases a with
  | openDomain p env => exact Iff.rfl
  | startup p env => exact startupHarmless_iff
  | other m => exact Iff.rfl

/-! ### When a process is informed -/

/-- A startup that takes the core out of reset. -/
def Boots (cpu : DomainIndex) (w : World P) (p : P) : WorldAction P → Prop
  | .startup q env =>
      q = p ∧ w.machine.apu.coreInReset cpu = true ∧
        (Bmboot.startup cpu env w.machine (w.process q)).machine.apu.coreInReset
          cpu = false
  | .openDomain _ _ | .other _ => False

end World

theorem coreInReset_congr {cpu : DomainIndex} {apu apu' : Apu}
    (h : apu.rstFpdApu &&& cpu.resetMask = apu'.rstFpdApu &&& cpu.resetMask) :
    apu.coreInReset cpu = apu'.coreInReset cpu := by
  rw [Apu.coreInReset, Apu.coreInReset, h]

/-- What a process has found when it opens the domain is so. -/
theorem informed_openDomain
    (cpu : DomainIndex) (env : OpenEnv) (m : Machine) (p : ManagerProcess)
    (hp : p.opened = true → Informed cpu m p) :
    (openDomain cpu env m p).1.opened = true →
      Informed cpu m (openDomain cpu env m p).1 := by
  simp only [openDomain]
  split_ifs with hdevmem hipc hcode hreset hcookie
  · exact hp
  · exact hp
  · exact hp
  · intro _ _
    simp only [isCoreInReset, Bool.and_eq_true] at hreset
    exact hreset.2
  · intro _ hstate
    cases hstate
  · intro _ hstate
    cases hstate

/-- A process that starts the domain knows that it did. -/
theorem informed_startup
    (cpu : DomainIndex) (env : StartupEnv) (m : Machine) (p : ManagerProcess)
    (hp : Informed cpu m p) :
    Informed cpu (startup cpu env m p).machine
      (startup cpu env m p).process := by
  intro hstate
  cases hchecks : startupChecks env p with
  | error e =>
      rw [startup_of_checks_error hchecks] at hstate ⊢
      exact hp hstate
  | ok cntfrq =>
      obtain ⟨-, hold, -⟩ := startupChecks_eq_ok_iff.mp hchecks
      have hreset := hp hold
      simp only [startup, hchecks] at hstate ⊢
      simp only [bootCore] at hstate ⊢
      split_ifs at hstate ⊢ with hmapped hzero
      · exact hreset
      · exact hreset

namespace World

variable {P : Type*} [DecidableEq P]

/-- A process that has opened the domain is informed until another process
boots the core. -/
theorem informed_step
    {cpu : DomainIndex} {w w' : World P} {a : WorldAction P} (p : P)
    (hp : (w.process p).opened = true →
      Informed cpu w.machine (w.process p))
    (hother : ∀ q, q ≠ p → ¬w.Boots cpu q a)
    (hw : step cpu w a = some w') :
    (w'.process p).opened = true →
      Informed cpu w'.machine (w'.process p) := by
  cases a with
  | openDomain q env =>
      cases hw
      by_cases hq : p = q
      · subst hq
        simpa using informed_openDomain cpu env w.machine (w.process p) hp
      · simpa [Function.update_of_ne hq] using hp
  | startup q env =>
      simp only [step] at hw
      split_ifs at hw with hopened
      cases hw
      by_cases hq : p = q
      · subst hq
        intro _
        simpa using informed_startup cpu env w.machine (w.process p)
          (hp hopened)
      · intro hopen hstate
        simp only [Function.update_of_ne hq] at hopen hstate
        have hreset := hp hopen hstate
        have hboots := hother q (Ne.symm hq)
        by_contra hafter
        rw [Bool.not_eq_true] at hafter
        exact hboots ⟨rfl, hreset, hafter⟩
  | other m =>
      simp only [step] at hw
      split_ifs at hw with hsame
      cases hw
      intro hopen hstate
      rw [coreInReset_congr hsame]
      exact hp hopen hstate

end World

/-- As long as no other process boots the core, a process that opens the domain
and starts it does no damage. -/
theorem startup_harmless_of_no_other_boots
    {P : Type*} [DecidableEq P] {cpu : DomainIndex} {w w' : World P}
    {calls : List (WorldAction P)} (p : P) (env : StartupEnv)
    (hfresh : (w.process p).opened = false)
    (hother : StepSystem.EachStep (World.step cpu) w calls
      fun v a => ∀ q, q ≠ p → ¬v.Boots cpu q a)
    (hrun : StepSystem.run (World.step cpu) w calls = some w')
    (hopened : (w'.process p).opened = true) :
    w'.Harmless cpu (.startup p env) := by
  have hinformed : (w'.process p).opened = true →
      Informed cpu w'.machine (w'.process p) := by
    refine StepSystem.run_preserves_of_eachStep
      (fun v a v' hv hstep hq => World.informed_step p hv hq hstep) ?_ hother
      hrun
    intro hopen
    rw [hfresh] at hopen
    exact absurd hopen Bool.false_ne_true
  exact startupHarmless_iff.mpr (.inl (hinformed hopened))

/-- In every sequence of calls of any processes, every startup of a running
core is refused cleanly exactly when each is made by a process that knows that
the core has left reset, or fails early, or writes what is there. -/
theorem startups_harmless_iff
    {P : Type*} [DecidableEq P] (cpu : DomainIndex) (w : World P)
    (calls : List (WorldAction P)) :
    StepSystem.EachStep (World.step cpu) w calls (World.Harmless cpu) ↔
      StepSystem.EachStep (World.step cpu) w calls (World.Guarded cpu) := by
  have htrivial : ∀ (v : World P) a v', True → v.step cpu a = some v' →
      True := fun _ _ _ _ _ => trivial
  refine StepSystem.eachStep_congr htrivial ?_ trivial calls
  intro v a _ _ _
  exact v.harmless_iff_guarded cpu a

/-- A call with everything granted, for a small image, that sees the monitor
become ready. -/
def grantedStartup : StartupEnv where
  config := some 100
  devmem := true
  codeMapped := true
  image := [1, 2, 3, 4]
  apuMapped := true
  polls := fun _ => DomainState.monitorReady.code

def grantedOpen : OpenEnv where
  devmem := true
  ipcMapped := true
  codeMapped := true
  apuMapped := true

/-- All cores but the manager's in reset, and two processes. -/
def twoProcesses : World Bool where
  machine := { apu := apuAfterReset, monitor := fun _ => 0, ipc := .zero }
  process := fun _ => .fresh

/-- The machine with the first core running and its monitor ready. -/
def readyMachine : Machine where
  apu := { rstFpdApu := 0x300c, rvbarAddr := fun _ => 0 }
  monitor := fun _ => 1
  ipc := IpcBlock.zero.setState .monitorReady

/-- Both processes open the domain; the first starts it and the monitor becomes
ready; the second starts it too. -/
def secondStartup : List (WorldAction Bool) :=
  [.openDomain false grantedOpen, .openDomain true grantedOpen,
    .startup false grantedStartup, .other readyMachine,
    .startup true grantedStartup]

/-- The second startup fails and has overwritten the state of the running
monitor. -/
theorem not_startups_harmless_secondStartup :
    ¬StepSystem.EachStep (World.step .cpu1) twoProcesses secondStartup
      (World.Harmless .cpu1) := by
  intro hall
  have hrun : (StepSystem.run (World.step .cpu1) twoProcesses
      (secondStartup.take 4)).any (fun w =>
        (World.step .cpu1 w (.startup true grantedStartup)).isSome &&
          !w.machine.apu.coreInReset .cpu1 &&
          decide ((startup .cpu1 grantedStartup w.machine
            (w.process true)).machine.ipc.executorToManager.state ≠
              w.machine.ipc.executorToManager.state)) = true := by
    decide
  obtain ⟨w, hw, htest⟩ := (Option.any_eq_true _ _).mp hrun
  simp only [Bool.and_eq_true, Bool.not_eq_true', decide_eq_true_eq] at htest
  obtain ⟨⟨hsome, hreset⟩, hstate⟩ := htest
  obtain ⟨w', hw'⟩ := Option.isSome_iff_exists.mp hsome
  have hharmless := hall _ _ w w' (List.prefix_refl _) hw hw'
  exact hstate (by rw [(hharmless hreset).ipc])

end Bmboot
