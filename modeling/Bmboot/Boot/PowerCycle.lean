import Bmboot.Boot.Startup

/-!
# Startups that are cut short

One power cycle of a core: it comes up in reset, over whatever the memory holds.
Any number of calls of `startup` are made, each of which may be killed between
any two of its writes, until one gets as far as releasing the core.  From then
on the monitor runs.  Any process may look at the domain at any time.
-/

namespace Bmboot

/-! ## The writes of a startup -/

inductive StartupWrite
  | monitorByte (offset : ℕ) (byte : UInt8)
  | ipcBlock (ipc : IpcBlock)
  | state
  | cntfrq (cntfrq : BitVec 32)
  | rvbarLow
  | rvbarHigh
  | resetRelease (initVal : BitVec 32)

def StartupWrite.apply (cpu : DomainIndex) (m : Machine) :
    StartupWrite → Machine
  | .monitorByte offset byte =>
      { m with monitor := Function.update m.monitor offset byte }
  | .ipcBlock ipc => { m with ipc := ipc }
  | .state => { m with ipc := m.ipc.setState .invalidState }
  | .cntfrq value =>
      { m with ipc :=
          { m.ipc with managerToExecutor :=
              { m.ipc.managerToExecutor with cntfrq := value } } }
  | .rvbarLow => { m with apu := m.apu.writeRvbarLow cpu (monitorAddress cpu) }
  | .rvbarHigh =>
      { m with apu := m.apu.writeRvbarHigh cpu (monitorAddress cpu) }
  | .resetRelease initVal =>
      { m with apu := m.apu.deassertReset cpu initVal }

def applyWrites (cpu : DomainIndex) (m : Machine) (writes : List StartupWrite) :
    Machine :=
  writes.foldl (StartupWrite.apply cpu) m

def memcpyWrites (offset : ℕ) (bytes : List UInt8) : List StartupWrite :=
  bytes.mapIdx fun i b => .monitorByte (offset + i) b

/-- The writes of `startup` up to its call of `bootCore`.  While the block is
cleared it may have any contents. -/
def memoryWrites (env : StartupEnv) (clearing : List IpcBlock)
    (cntfrq : BitVec 32) : List StartupWrite :=
  memcpyWrites 0 env.image ++ memcpyWrites cookieOffset monitorCodeCookie ++
    clearing.map .ipcBlock ++ [.ipcBlock .zero, .state, .cntfrq cntfrq]

/-- The writes of `bootCore` for a core in reset. -/
def bootWrites (mapped : Bool) (initVal : BitVec 32) : List StartupWrite :=
  if mapped then [.rvbarLow, .rvbarHigh, .resetRelease initVal] else []

def startupWriteList (env : StartupEnv) (clearing : List IpcBlock)
    (cntfrq : BitVec 32) (apu : Apu) : List StartupWrite :=
  memoryWrites env clearing cntfrq ++ bootWrites env.apuMapped apu.rstFpdApu

/-! ## A power cycle -/

/-- What the monitor writes to `executor_to_manager.state`. -/
def monitorStates : List DomainState :=
  [.monitorReady, .startingPayload, .runningPayload, .crashedPayload,
    .crashedMonitor]

/-- The machine, and the states that the monitor has written since the core left
reset. -/
structure PowerCycle where
  machine : Machine
  written : List DomainState

/-- A call of `startup`, killed after some of its writes, or a store of the
monitor to its memory, to the state, or to the rest of the block. -/
inductive PowerCycleAction
  | startup (p : ManagerProcess) (env : StartupEnv) (clearing : List IpcBlock)
      (writes : ℕ)
  | store (offset : ℕ) (byte : UInt8)
  | storeState (st : DomainState)
  | storeIpc (ipc : IpcBlock)

/-- The core has left reset. -/
def PowerCycle.released (cpu : DomainIndex) (w : PowerCycle) : Bool :=
  !w.machine.apu.coreInReset cpu

/-- The monitor does not write the last 4 bytes of its memory. -/
def PowerCycle.step (cpu : DomainIndex) (w : PowerCycle) :
    PowerCycleAction → Option PowerCycle
  | .startup p env clearing writes =>
      if w.released cpu then none
      else
        match startupChecks env p with
        | .error _ => some w
        | .ok cntfrq =>
            let made := (startupWriteList env clearing cntfrq
              w.machine.apu).take writes
            some { w with machine := applyWrites cpu w.machine made }
  | .store offset byte =>
      if w.released cpu = true ∧ offset < cookieOffset then
        let machine :=
          { w.machine with
            monitor := Function.update w.machine.monitor offset byte }
        some { w with machine := machine }
      else none
  | .storeState st =>
      if w.released cpu = true ∧ st ∈ monitorStates then
        some { machine :=
                { w.machine with ipc := w.machine.ipc.setState st }
               written := w.written ++ [st] }
      else none
  | .storeIpc ipc =>
      if w.released cpu then
        let outbox :=
          { ipc.executorToManager with
            state := w.machine.ipc.executorToManager.state }
        let ipc := { ipc with executorToManager := outbox }
        some { w with machine := { w.machine with ipc := ipc } }
      else none

/-- A core in reset over any memory. -/
structure ColdCore (cpu : DomainIndex) where
  machine : Machine
  inReset : machine.apu.coreInReset cpu = true

def ColdCore.start {cpu : DomainIndex} (c : ColdCore cpu) : PowerCycle where
  machine := c.machine
  written := []

/-! ## What a process sees -/

/-- `Domain::getState`. -/
def ManagerProcess.getState (p : ManagerProcess) (m : Machine) : DomainState :=
  match p.generalState with
  | .inReset => .inReset
  | .unavailable => .unavailable
  | .monitorStarted => DomainState.ofRaw m.ipc.executorToManager.state

/-- A process that has opened the domain reports `in_reset` exactly while the
core is in reset, and is then prepared to start it; later it reports
`invalid_state` or what the monitor has written. -/
structure PowerCycle.ReportsRight (cpu : DomainIndex) (w : PowerCycle)
    (p : ManagerProcess) : Prop where
  inReset : p.getState w.machine = .inReset ↔ w.released cpu = false
  again : w.released cpu = false → p.generalState = .inReset
  afterRelease : w.released cpu = true →
    p.getState w.machine ≠ .unavailable ∧
      (p.getState w.machine = .invalidState ∨
        p.getState w.machine ∈ w.written)

/-- An `open` that succeeds leads to the right reports. -/
def PowerCycle.OpensRight (cpu : DomainIndex) (w : PowerCycle) (env : OpenEnv)
    (p : ManagerProcess) : Prop :=
  (openDomain cpu env w.machine p).2 = none →
    w.ReportsRight cpu (openDomain cpu env w.machine p).1

/-! ## A startup that is not cut short -/

section Writes

variable (cpu : DomainIndex)

theorem applyWrites_append (m : Machine) (before after : List StartupWrite) :
    applyWrites cpu m (before ++ after) =
      applyWrites cpu (applyWrites cpu m before) after :=
  List.foldl_append

theorem memcpyWrites_cons (offset : ℕ) (b : UInt8) (rest : List UInt8) :
    memcpyWrites offset (b :: rest) =
      .monitorByte offset b :: memcpyWrites (offset + 1) rest := by
  have hindex : ∀ i, offset + 1 + i = offset + (i + 1) := fun i => by omega
  simp only [memcpyWrites, List.mapIdx_cons, hindex]
  rfl

theorem memcpy_cons (mem : ℕ → UInt8) (offset : ℕ) (b : UInt8)
    (rest : List UInt8) :
    memcpy (Function.update mem offset b) (offset + 1) rest =
      memcpy mem offset (b :: rest) := by
  funext i
  by_cases hfirst : i = offset
  · subst hfirst
    have hbehind : ¬i + 1 ≤ i := Nat.not_succ_le_self i
    rw [memcpy, if_neg hbehind, Function.update_self, memcpy,
      if_pos (Nat.le_refl i), Nat.sub_self, List.getD_cons_zero]
  · rw [memcpy, memcpy, Function.update_of_ne hfirst]
    by_cases hle : offset ≤ i
    · obtain ⟨k, hk⟩ : ∃ k, i - offset = k + 1 := ⟨i - offset - 1, by omega⟩
      rw [if_pos (by omega), if_pos hle, hk, List.getD_cons_succ]
      congr 1
      omega
    · rw [if_neg (by omega), if_neg hle]

/-- The bytes of a `memcpy`, one after the other. -/
theorem applyWrites_memcpyWrites (m : Machine) (offset : ℕ)
    (bytes : List UInt8) :
    applyWrites cpu m (memcpyWrites offset bytes) =
      { m with monitor := memcpy m.monitor offset bytes } := by
  induction bytes generalizing m offset with
  | nil =>
      have hnothing : memcpy m.monitor offset [] = m.monitor := by
        funext i
        rw [memcpy, List.getD_nil, ite_self]
      rw [hnothing]
      rfl
  | cons b rest ih =>
      rw [memcpyWrites_cons, ← memcpy_cons]
      exact ih _ _

/-- The last of the blocks that are stored remains. -/
theorem applyWrites_ipcBlocks (m : Machine) (clearing : List IpcBlock) :
    ∃ ipc, applyWrites cpu m (clearing.map .ipcBlock) = { m with ipc := ipc } := by
  induction clearing generalizing m with
  | nil => exact ⟨m.ipc, rfl⟩
  | cons block rest ih => exact ih { m with ipc := block }

theorem applyWrites_memoryWrites (env : StartupEnv) (clearing : List IpcBlock)
    (cntfrq : BitVec 32) (m : Machine) :
    applyWrites cpu m (memoryWrites env clearing cntfrq) =
      startupWrites env cntfrq m := by
  rw [memoryWrites, applyWrites_append, applyWrites_append, applyWrites_append,
    applyWrites_memcpyWrites, applyWrites_memcpyWrites]
  let monitor := memcpy (memcpy m.monitor 0 env.image) cookieOffset
    monitorCodeCookie
  obtain ⟨ipc, hipc⟩ :=
    applyWrites_ipcBlocks cpu { m with monitor := monitor } clearing
  rw [hipc]
  rfl

/-- All writes of a call that passes its checks make up what the call does. -/
theorem applyWrites_startupWriteList {env : StartupEnv} {cntfrq : BitVec 32}
    {p : ManagerProcess} (clearing : List IpcBlock) (m : Machine)
    (hreset : m.apu.coreInReset cpu = true)
    (hchecks : startupChecks env p = .ok cntfrq) :
    applyWrites cpu m (startupWriteList env clearing cntfrq m.apu) =
      (startup cpu env m p).machine := by
  have hset : ¬m.apu.rstFpdApu &&& cpu.resetMask = 0 := by
    simpa [Apu.coreInReset] using hreset
  have hset' : ¬(startupWrites env cntfrq m).apu.rstFpdApu &&&
      cpu.resetMask = 0 := hset
  rw [startupWriteList, applyWrites_append, applyWrites_memoryWrites]
  cases hmapped : env.apuMapped with
  | false =>
      simp only [startup, hchecks, bootCore, hmapped, if_true]
      rfl
  | true =>
      simp only [startup, hchecks, bootCore, hmapped, Bool.true_eq_false,
        if_false, hset']
      rfl

end Writes

/-! ## Where the release stands -/

section Release

variable (cpu : DomainIndex)

theorem rstFpdApu_applyWrites (m : Machine) {writes : List StartupWrite}
    (h : ∀ v, .resetRelease v ∉ writes) :
    (applyWrites cpu m writes).apu.rstFpdApu = m.apu.rstFpdApu := by
  induction writes generalizing m with
  | nil => rfl
  | cons w rest ih =>
      have hrest : ∀ v, .resetRelease v ∉ rest :=
        fun v hv => h v (List.mem_cons_of_mem w hv)
      have hfirst : (w.apply cpu m).apu.rstFpdApu = m.apu.rstFpdApu := by
        cases w with
        | resetRelease v => exact absurd List.mem_cons_self (h v)
        | _ => rfl
      exact (ih _ hrest).trans hfirst

theorem resetRelease_not_mem_memoryWrites (env : StartupEnv)
    (clearing : List IpcBlock) (cntfrq v : BitVec 32) :
    .resetRelease v ∉ memoryWrites env clearing cntfrq := by
  simp [memoryWrites, memcpyWrites, List.mem_mapIdx]

/-- Nothing but the last write releases the core. -/
theorem take_startupWriteList (env : StartupEnv) (clearing : List IpcBlock)
    (cntfrq : BitVec 32) (apu : Apu) (n : ℕ) :
    (startupWriteList env clearing cntfrq apu).take n =
        startupWriteList env clearing cntfrq apu ∨
      ∀ v, .resetRelease v ∉
        (startupWriteList env clearing cntfrq apu).take n := by
  have hmemory := resetRelease_not_mem_memoryWrites env clearing cntfrq
  cases hmapped : env.apuMapped with
  | false =>
      right
      intro v hv
      have hmem := List.mem_of_mem_take hv
      rw [startupWriteList, hmapped, bootWrites, if_neg Bool.false_ne_true,
        List.append_nil] at hmem
      exact hmemory v hmem
  | true =>
      let before := memoryWrites env clearing cntfrq ++ [.rvbarLow, .rvbarHigh]
      have hsplit : startupWriteList env clearing cntfrq apu =
          before ++ [.resetRelease apu.rstFpdApu] := by
        rw [startupWriteList, hmapped, List.append_assoc]
        rfl
      by_cases hn : n ≤ before.length
      · right
        intro v hv
        rw [hsplit, List.take_append_of_le_length hn] at hv
        rcases List.mem_append.mp (List.mem_of_mem_take hv) with hmem | hboot
        · exact hmemory v hmem
        · simp at hboot
      · left
        apply List.take_of_length_le
        rw [hsplit, List.length_append, List.length_singleton]
        omega

end Release

/-! ## The invariant -/

theorem memcpy_add (mem : ℕ → UInt8) (offset : ℕ) (bytes : List UInt8) (i : ℕ) :
    memcpy mem offset bytes (offset + i) = bytes.getD i (mem (offset + i)) := by
  rw [memcpy, if_pos (Nat.le_add_right _ _), Nat.add_sub_cancel_left]

theorem cookieFound_startupWrites (env : StartupEnv) (cntfrq : BitVec 32)
    (m : Machine) : (startupWrites env cntfrq m).cookieFound = true := by
  apply decide_eq_true
  have hbyte : ∀ i, (startupWrites env cntfrq m).monitor (cookieOffset + i) =
      monitorCodeCookie.getD i
        (memcpy m.monitor 0 env.image (cookieOffset + i)) :=
    memcpy_add _ cookieOffset monitorCodeCookie
  simp only [hbyte]
  rfl

theorem startup_machine (cpu : DomainIndex) {env : StartupEnv}
    {cntfrq : BitVec 32} (m : Machine) {p : ManagerProcess}
    (hchecks : startupChecks env p = .ok cntfrq) :
    (startup cpu env m p).machine.monitor =
        (startupWrites env cntfrq m).monitor ∧
      (startup cpu env m p).machine.ipc = initialIpc cntfrq := by
  simp only [startup, hchecks]
  split
  · exact ⟨rfl, rfl⟩
  · exact ⟨rfl, rfl⟩

/-- Once the core has left reset, the cookie is in place, and the state is the
one that `startup` has written or one that the monitor has. -/
structure PowerCycle.Inv (cpu : DomainIndex) (w : PowerCycle) : Prop where
  cookie : w.released cpu = true → w.machine.cookieFound = true
  state : w.released cpu = true →
    ∃ st, w.machine.ipc.executorToManager.state = st.code ∧
      (st = .invalidState ∨ st ∈ w.written)
  written : ∀ st ∈ w.written, st ∈ monitorStates

namespace PowerCycle

variable {cpu : DomainIndex} {w w' : PowerCycle} {a : PowerCycleAction}

/-- While the core is in reset, memory may hold anything. -/
theorem Inv.of_inReset (hreset : w.released cpu = false)
    (hwritten : ∀ st ∈ w.written, st ∈ monitorStates) : w.Inv cpu := by
  have hnot : w.released cpu ≠ true := by
    rw [hreset]
    exact Bool.false_ne_true
  exact ⟨fun h => absurd h hnot, fun h => absurd h hnot, hwritten⟩

theorem inv_start (c : ColdCore cpu) : c.start.Inv cpu := by
  have hreset : c.start.released cpu = false := by
    rw [released, ColdCore.start, c.inReset]
    rfl
  apply Inv.of_inReset hreset
  nofun

theorem Inv.startup {p : ManagerProcess} {env : StartupEnv}
    {clearing : List IpcBlock} {n : ℕ} (hw : w.Inv cpu)
    (hstep : w.step cpu (.startup p env clearing n) = some w') :
    w'.Inv cpu := by
  simp only [step] at hstep
  split at hstep
  · cases hstep
  next hreset =>
    split at hstep
    · cases hstep
      exact hw
    next cntfrq hchecks =>
      cases hstep
      rw [Bool.not_eq_true, released, Bool.not_eq_false'] at hreset
      rcases take_startupWriteList env clearing cntfrq w.machine.apu n with
        hall | hcut
      · obtain ⟨hmonitor, hipc⟩ := startup_machine cpu w.machine hchecks
        rw [hall, applyWrites_startupWriteList cpu clearing _ hreset hchecks]
        constructor
        · intro _
          rw [Machine.cookieFound, hmonitor]
          exact cookieFound_startupWrites env cntfrq w.machine
        · intro _
          refine ⟨.invalidState, ?_, .inl rfl⟩
          rw [hipc]
          rfl
        · exact hw.written
      · -- the core is still in reset
        refine Inv.of_inReset ?_ hw.written
        rw [Apu.coreInReset] at hreset
        rw [released, Apu.coreInReset, rstFpdApu_applyWrites cpu _ hcut, hreset]
        rfl

theorem Inv.step (hw : w.Inv cpu) (hstep : w.step cpu a = some w') :
    w'.Inv cpu := by
  cases a with
  | startup p env clearing n => exact hw.startup hstep
  | store offset byte =>
      simp only [PowerCycle.step] at hstep
      split at hstep
      next hstore =>
        cases hstep
        refine ⟨?_, hw.state, hw.written⟩
        intro hreleased
        rw [← hw.cookie hreleased]
        have hsame : ∀ i, Function.update w.machine.monitor offset byte
            (cookieOffset + i) = w.machine.monitor (cookieOffset + i) := by
          intro i
          exact Function.update_of_ne (by omega) _ _
        simp only [Machine.cookieFound, hsame]
      · cases hstep
  | storeState st =>
      simp only [PowerCycle.step] at hstep
      split at hstep
      next hstore =>
        cases hstep
        constructor
        · exact hw.cookie
        · exact fun _ => ⟨st, rfl,
            .inr (List.mem_append_right _ List.mem_cons_self)⟩
        · intro st' hst'
          rcases List.mem_append.mp hst' with hbefore | hnow
          · exact hw.written st' hbefore
          · obtain rfl := List.mem_singleton.mp hnow
            exact hstore.2
      · cases hstep
  | storeIpc ipc =>
      simp only [PowerCycle.step] at hstep
      split at hstep
      · cases hstep
        exact ⟨hw.cookie, hw.state, hw.written⟩
      · cases hstep

/-! ## Reports -/

theorem reportsRight_of_inReset {p : ManagerProcess}
    (hreset : w.released cpu = false) (hp : p.generalState = .inReset) :
    w.ReportsRight cpu p := by
  have hstate : p.getState w.machine = .inReset := by
    rw [ManagerProcess.getState, hp]
  constructor
  · exact iff_of_true hstate hreset
  · exact fun _ => hp
  · intro h
    rw [hreset] at h
    cases h

theorem reportsRight_of_released {p : ManagerProcess} (hw : w.Inv cpu)
    (hreleased : w.released cpu = true)
    (hp : p.generalState = .monitorStarted) : w.ReportsRight cpu p := by
  obtain ⟨st, hcode, horigin⟩ := hw.state hreleased
  have hstate : p.getState w.machine = st := by
    rw [ManagerProcess.getState, hp]
    simp only [hcode, DomainState.ofRaw_code]
  have hknown : st ≠ .inReset ∧ st ≠ .unavailable := by
    rcases horigin with rfl | hwritten
    · decide
    · have hmem := hw.written st hwritten
      revert hmem
      cases st <;> decide
  constructor
  · rw [hstate, hreleased]
    exact iff_of_false hknown.1 nofun
  · intro h
    rw [hreleased] at h
    cases h
  · intro _
    rw [hstate]
    exact ⟨hknown.2, horigin⟩

/-- What a process finds when it opens the domain. -/
theorem generalState_openDomain {env : OpenEnv} {p : ManagerProcess}
    (hok : (openDomain cpu env w.machine p).2 = none) :
    (openDomain cpu env w.machine p).1.generalState =
      if isCoreInReset env.apuMapped cpu w.machine.apu then .inReset
      else if w.machine.cookieFound then .monitorStarted
      else .unavailable := by
  simp only [openDomain] at hok ⊢
  split at hok
  · cases hok
  next hdevmem =>
    split at hok
    · cases hok
    next hipc =>
      split at hok
      · cases hok
      next hcode => rw [if_neg hdevmem, if_neg hipc, if_neg hcode]

/-- A process that opens the domain is right exactly if it can read the reset
register, or the core has left reset, or its call fails. -/
theorem opensRight_iff (hw : w.Inv cpu) (env : OpenEnv) (p : ManagerProcess) :
    w.OpensRight cpu env p ↔
      env.apuMapped = true ∨ w.released cpu = true ∨
        (openDomain cpu env w.machine p).2 ≠ none := by
  by_cases hok : (openDomain cpu env w.machine p).2 = none
  · have hgeneral := generalState_openDomain hok
    have hopens : w.OpensRight cpu env p ↔
        w.ReportsRight cpu (openDomain cpu env w.machine p).1 :=
      ⟨fun h => h hok, fun h _ => h⟩
    rw [hopens]
    cases hreleased : w.released cpu with
    | true =>
        refine iff_of_true ?_ (.inr (.inl rfl))
        apply reportsRight_of_released hw hreleased
        have hreset : w.machine.apu.coreInReset cpu = false := by
          rw [released, Bool.not_eq_true'] at hreleased
          exact hreleased
        rw [hgeneral, isCoreInReset, hreset, Bool.and_false,
          if_neg Bool.false_ne_true, if_pos (hw.cookie hreleased)]
    | false =>
        have hreset : w.machine.apu.coreInReset cpu = true := by
          rw [released, Bool.not_eq_false'] at hreleased
          exact hreleased
        rw [isCoreInReset, hreset, Bool.and_true] at hgeneral
        constructor
        · intro hright
          have hagain := hright.again hreleased
          rw [hgeneral] at hagain
          split at hagain
          next hmapped => exact .inl hmapped
          · split at hagain
            · cases hagain
            · cases hagain
        · rintro (hmapped | hfalse | hfails)
          · apply reportsRight_of_inReset hreleased
            rw [hgeneral, if_pos hmapped]
          · cases hfalse
          · exact absurd hok hfails
  · exact iff_of_true (fun h => absurd h hok) (.inr (.inr hok))

end PowerCycle

/-- After any startups that are cut short anywhere and any steps of the monitor,
a process that opens the domain reports the right state exactly if it can read
the reset register, or the core has left reset, or its call fails. -/
theorem powerCycle_opensRight_iff {cpu : DomainIndex} (c : ColdCore cpu)
    (as : List PowerCycleAction) :
    StepSystem.Throughout (PowerCycle.step cpu) c.start as fun w =>
      ∀ env p, w.OpensRight cpu env p ↔
        env.apuMapped = true ∨ w.released cpu = true ∨
          (openDomain cpu env w.machine p).2 ≠ none := by
  intro before w _ hrun env p
  have hinv : w.Inv cpu := StepSystem.run_preserves
    (fun _ _ _ h ht => h.step ht) (PowerCycle.inv_start c) hrun
  exact PowerCycle.opensRight_iff hinv env p

/-- A core in reset with what an earlier power cycle has left: a cookie and a
monitor that was ready. -/
def warmMemory : ColdCore .cpu1 where
  machine :=
    { apu := apuAfterReset
      monitor := memcpy (fun _ => 0) cookieOffset monitorCodeCookie
      ipc := IpcBlock.zero.setState .monitorReady }
  inReset := by decide

/-- A process that cannot map the reset register. -/
def withoutApu : OpenEnv where
  devmem := true
  ipcMapped := true
  codeMapped := true
  apuMapped := false

theorem not_powerCycle_opensRight_withoutApu :
    ¬∀ (cpu : DomainIndex) (c : ColdCore cpu) (as : List PowerCycleAction),
      StepSystem.Throughout (PowerCycle.step cpu) c.start as fun w =>
        ∀ env p, w.OpensRight cpu env p := by
  intro hright
  have hopens := hright .cpu1 warmMemory [] [] warmMemory.start
    (List.prefix_refl _) rfl withoutApu .fresh
  have hreports := hopens (by decide)
  exact absurd (hreports.again (by decide)) (by decide)

end Bmboot
