import Bmboot.Lib.StepSystem
import Bmboot.Gic.InterruptController
import Mathlib.Tactic.SplitIfs

/-!
# Taking a core out of reset

`bootCore` (`zynqmp_manager.cpp`) reads the reset control register of all cores
and later writes it back with the bits of its own core cleared.  The first part
is the function as one call computes it, the second part is any set of calls
for different cores at once, one register access a step.
-/

namespace Bmboot

/-! ## The registers -/

/-- The registers that start a core: `RST_FPD_APU` and the reset vectors by
their offsets. -/
structure Apu where
  rstFpdApu : BitVec 32
  rvbarAddr : ℕ → BitVec 32

/-- The bits `acpuN_reset` and `acpuN_pwron_reset`. -/
def DomainIndex.resetMask (cpu : DomainIndex) : BitVec 32 :=
  0x401#32 <<< cpu.cpuIndex

namespace Apu

def coreInReset (apu : Apu) (cpu : DomainIndex) : Bool :=
  apu.rstFpdApu &&& cpu.resetMask ≠ 0

def writeRvbarLow (apu : Apu) (cpu : DomainIndex) (address : BitVec 64) : Apu :=
  { apu with
    rvbarAddr := Function.update apu.rvbarAddr (0x0040 + cpu.cpuIndex * 8)
      (address.truncate 32) }

def writeRvbarHigh (apu : Apu) (cpu : DomainIndex) (address : BitVec 64) : Apu :=
  { apu with
    rvbarAddr := Function.update apu.rvbarAddr (0x0044 + cpu.cpuIndex * 8)
      ((address >>> 32).truncate 32) }

/-- The write-back of `RST_FPD_APU` by a call that has read `initVal`. -/
def deassertReset (apu : Apu) (cpu : DomainIndex) (initVal : BitVec 32) : Apu :=
  { apu with rstFpdApu := initVal &&& ~~~cpu.resetMask }

end Apu

/-- A mapping of the register page that fails reads as "not in reset". -/
def isCoreInReset (mapped : Bool) (cpu : DomainIndex) (apu : Apu) : Bool :=
  mapped && apu.coreInReset cpu

def bootCore (mapped : Bool) (cpu : DomainIndex) (resetAddress : BitVec 64)
    (apu : Apu) : Apu × MaybeError :=
  if mapped = false then (apu, some .mmapFailed)
  else
    let initVal := apu.rstFpdApu
    if initVal &&& cpu.resetMask = 0 then (apu, some .hwResourceUnavailable)
    else
      let apu := apu.writeRvbarLow cpu resetAddress
      let apu := apu.writeRvbarHigh cpu resetAddress
      (apu.deassertReset cpu initVal, none)

/-! ## Calls at the same time -/

/-- A call of `bootCore`: what it does next and the value it has read. -/
inductive BootPc
  | idle
  | map
  | read
  | writeLow (initVal : BitVec 32)
  | writeHigh (initVal : BitVec 32)
  | writeReset (initVal : BitVec 32)
  | returned (result : MaybeError)
  deriving DecidableEq

/-- The register value that a call has read and not yet written back. -/
def BootPc.initVal : BootPc → Option (BitVec 32)
  | .writeLow v | .writeHigh v | .writeReset v => some v
  | .idle | .map | .read | .returned _ => none

/-- The registers and one call for each core. -/
structure Booting where
  apu : Apu
  pc : DomainIndex → BootPc

inductive BootAction
  | call (cpu : DomainIndex)
  | map (cpu : DomainIndex) (mapped : Bool)
  | access (cpu : DomainIndex)
  deriving DecidableEq

namespace Booting

def start (apu : Apu) : Booting where
  apu := apu
  pc := fun _ => .idle

def goto (s : Booting) (cpu : DomainIndex) (pc : BootPc) : Booting :=
  { s with pc := Function.update s.pc cpu pc }

/-- The next register access of a call. -/
def access (resetAddress : DomainIndex → BitVec 64) (s : Booting)
    (cpu : DomainIndex) : Option Booting :=
  match s.pc cpu with
  | .read =>
      if s.apu.rstFpdApu &&& cpu.resetMask = 0 then
        some (s.goto cpu (.returned (some .hwResourceUnavailable)))
      else some (s.goto cpu (.writeLow s.apu.rstFpdApu))
  | .writeLow initVal =>
      some ({ s with apu := s.apu.writeRvbarLow cpu (resetAddress cpu) }.goto cpu
        (.writeHigh initVal))
  | .writeHigh initVal =>
      some ({ s with apu := s.apu.writeRvbarHigh cpu (resetAddress cpu) }.goto cpu
        (.writeReset initVal))
  | .writeReset initVal =>
      some ({ s with apu := s.apu.deassertReset cpu initVal }.goto cpu
        (.returned none))
  | .idle | .map | .returned _ => none

def step (resetAddress : DomainIndex → BitVec 64) (s : Booting) :
    BootAction → Option Booting
  | .call cpu =>
      if s.pc cpu = .idle then some (s.goto cpu .map) else none
  | .map cpu mapped =>
      if s.pc cpu = .map then
        some (s.goto cpu
          (if mapped then .read else .returned (some .mmapFailed)))
      else none
  | .access cpu => s.access resetAddress cpu

/-- The call for this core has been successful. -/
def Booted (s : Booting) (cpu : DomainIndex) : Prop :=
  s.pc cpu = .returned none

instance (s : Booting) (cpu : DomainIndex) : Decidable (s.Booted cpu) :=
  inferInstanceAs (Decidable (_ = _))

/-- Bit `k` belongs to a core that has been booted. -/
def BootedBit (s : Booting) (k : ℕ) : Prop :=
  ∃ cpu, s.Booted cpu ∧ cpu.resetMask.getLsbD k = true

/-- The reset bits of the booted cores are clear and the other bits of the
register are as they were. -/
structure ResetsRight (init : BitVec 32) (s : Booting) : Prop where
  cleared : ∀ cpu, s.Booted cpu → s.apu.rstFpdApu &&& cpu.resetMask = 0
  others : ∀ k, ¬s.BootedBit k → s.apu.rstFpdApu.getLsbD k = init.getLsbD k

/-- A call that is about to write the register back has read what it still
holds. -/
def WritesBackCurrent (s : Booting) : BootAction → Prop
  | .access cpu => ∀ v, s.pc cpu = .writeReset v → v = s.apu.rstFpdApu
  | .call _ | .map _ _ => True

/-! ## A single call -/

/-- A call with no other step in between computes `bootCore`. -/
theorem run_single
    (resetAddress : DomainIndex → BitVec 64) (s : Booting) (cpu : DomainIndex)
    (hidle : s.pc cpu = .idle)
    (hreset : s.apu.rstFpdApu &&& cpu.resetMask ≠ 0) :
    StepSystem.run (step resetAddress) s
        [.call cpu, .map cpu true, .access cpu, .access cpu, .access cpu,
          .access cpu] =
      some { apu := (bootCore true cpu (resetAddress cpu) s.apu).1
             pc := Function.update s.pc cpu (.returned none) } := by
  have hset : ¬s.apu.rstFpdApu &&& cpu.resetMask = 0#32 := hreset
  simp [StepSystem.run, step, access, goto, hidle, hset, bootCore,
    Apu.writeRvbarLow, Apu.writeRvbarHigh, Apu.deassertReset]

/-! ## Bits that stay -/

theorem resetMask_disjoint
    {cpu cpu' : DomainIndex} (hne : cpu ≠ cpu') {k : ℕ}
    (hk : cpu.resetMask.getLsbD k = true) :
    cpu'.resetMask.getLsbD k = false := by
  have hand : cpu.resetMask &&& cpu'.resetMask = 0 := by
    cases cpu <;> cases cpu' <;> first | exact absurd rfl hne | decide
  have hbit := congrArg (fun w => w.getLsbD k) hand
  simpa [hk] using hbit

theorem getLsbD_deassertReset (apu : Apu) (cpu : DomainIndex)
    (initVal : BitVec 32) (k : ℕ) :
    (apu.deassertReset cpu initVal).rstFpdApu.getLsbD k =
      (initVal.getLsbD k && !cpu.resetMask.getLsbD k) := by
  by_cases hk : k < 32
  · simp [Apu.deassertReset, hk]
  · simp [Apu.deassertReset, BitVec.getLsbD_of_ge _ _ (Nat.le_of_not_lt hk)]

/-- The register and every value read from it agree with the initial value
outside the bits of the cores booted by now. -/
structure Unaffected (init : BitVec 32) (s : Booting) : Prop where
  register : ∀ k, ¬s.BootedBit k → s.apu.rstFpdApu.getLsbD k = init.getLsbD k
  held : ∀ cpu v, (s.pc cpu).initVal = some v → ∀ k, ¬s.BootedBit k →
    v.getLsbD k = init.getLsbD k

section Steps

variable {resetAddress : DomainIndex → BitVec 64} {init : BitVec 32}
  {s t : Booting} {a : BootAction}

theorem bootedBit_goto
    {cpu : DomainIndex} {pc : BootPc} (hpc : pc ≠ .returned none)
    (hbooted : ¬s.Booted cpu) (k : ℕ) :
    (s.goto cpu pc).BootedBit k ↔ s.BootedBit k := by
  have hsame : ∀ cpu', (s.goto cpu pc).Booted cpu' ↔ s.Booted cpu' := by
    intro cpu'
    by_cases hcpu : cpu' = cpu
    · subst hcpu
      simp [Booted, goto, hpc, show s.pc cpu' ≠ .returned none from hbooted]
    · simp [Booted, goto, hcpu]
  simp only [BootedBit, hsame]

/-- A step that boots no core and leaves the register alone. -/
theorem Unaffected.goto
    (hs : s.Unaffected init) {cpu : DomainIndex} {pc : BootPc}
    (hpc : pc ≠ .returned none) (hbooted : ¬s.Booted cpu)
    (hheld : ∀ v, pc.initVal = some v →
      v = s.apu.rstFpdApu ∨ (s.pc cpu).initVal = some v) :
    (s.goto cpu pc).Unaffected init := by
  constructor
  · intro k hk
    rw [bootedBit_goto hpc hbooted] at hk
    exact hs.register k hk
  · intro cpu' v hv k hk
    rw [bootedBit_goto hpc hbooted] at hk
    by_cases hcpu : cpu' = cpu
    · subst hcpu
      have hpcv : pc.initVal = some v := by
        simpa [Booting.goto] using hv
      rcases hheld v hpcv with rfl | hold
      · exact hs.register k hk
      · exact hs.held cpu' v hold k hk
    · have hold : (s.pc cpu').initVal = some v := by
        simpa [Booting.goto, hcpu] using hv
      exact hs.held cpu' v hold k hk

theorem Unaffected.writeRvbar
    (hs : s.Unaffected init) {apu : Apu}
    (happu : apu.rstFpdApu = s.apu.rstFpdApu) :
    { s with apu := apu }.Unaffected init :=
  ⟨fun k hk => happu ▸ hs.register k hk, hs.held⟩

/-- The bits of the cores booted after a write-back. -/
theorem bootedBit_writeBack
    {cpu : DomainIndex} {apu : Apu} (k : ℕ) :
    ({ s with apu := apu }.goto cpu (.returned none)).BootedBit k ↔
      cpu.resetMask.getLsbD k = true ∨ s.BootedBit k := by
  constructor
  · rintro ⟨cpu', hbooted, hk⟩
    by_cases hcpu : cpu' = cpu
    · exact .inl (hcpu ▸ hk)
    · refine .inr ⟨cpu', ?_, hk⟩
      simpa [Booted, Booting.goto, hcpu] using hbooted
  · rintro (hk | ⟨cpu', hbooted, hk⟩)
    · exact ⟨cpu, by simp [Booted, Booting.goto], hk⟩
    · refine ⟨cpu', ?_, hk⟩
      by_cases hcpu : cpu' = cpu
      · simp [Booted, Booting.goto, hcpu]
      · simpa [Booted, Booting.goto, hcpu] using hbooted

theorem Unaffected.writeBack
    (hs : s.Unaffected init) {cpu : DomainIndex} {v : BitVec 32}
    (hpc : s.pc cpu = .writeReset v) :
    ({ s with apu := s.apu.deassertReset cpu v }.goto cpu
      (.returned none)).Unaffected init := by
  have hv : (s.pc cpu).initVal = some v := by
    rw [hpc]
    rfl
  constructor
  · intro k hk
    rw [bootedBit_writeBack, not_or] at hk
    obtain ⟨hmask, hbooted⟩ := hk
    have hbit := getLsbD_deassertReset s.apu cpu v k
    have hclear : cpu.resetMask.getLsbD k = false := Bool.eq_false_iff.mpr hmask
    rw [hclear, Bool.not_false, Bool.and_true] at hbit
    exact hbit.trans (hs.held cpu v hv k hbooted)
  · intro cpu' v' hv' k hk
    rw [bootedBit_writeBack, not_or] at hk
    by_cases hcpu : cpu' = cpu
    · subst hcpu
      simp [Booting.goto, BootPc.initVal] at hv'
    · have hold : (s.pc cpu').initVal = some v' := by
        simpa [Booting.goto, hcpu] using hv'
      exact hs.held cpu' v' hold k hk.2

/-- What a step can do: move one call on without touching the register, or
write it back. -/
theorem step_cases (ht : step resetAddress s a = some t) :
    (∃ cpu apu pc, t = { s with apu := apu }.goto cpu pc ∧
      apu.rstFpdApu = s.apu.rstFpdApu ∧ pc ≠ .returned none ∧
      ¬s.Booted cpu ∧ s.WritesBackCurrent a ∧
      (∀ v, pc.initVal = some v →
        v = s.apu.rstFpdApu ∨ (s.pc cpu).initVal = some v)) ∨
    (∃ cpu v, a = .access cpu ∧ s.pc cpu = .writeReset v ∧
      t = { s with apu := s.apu.deassertReset cpu v }.goto cpu
        (.returned none)) := by
  cases a with
  | call cpu =>
      simp only [step] at ht
      split_ifs at ht with hpc
      cases ht
      refine .inl ⟨cpu, s.apu, .map, rfl, rfl, nofun, ?_, trivial, nofun⟩
      simp [Booted, hpc]
  | map cpu mapped =>
      simp only [step] at ht
      split_ifs at ht with hpc hmapped
      · cases ht
        refine .inl ⟨cpu, s.apu, .read, rfl, rfl, nofun, ?_, trivial, nofun⟩
        simp [Booted, hpc]
      · cases ht
        refine .inl ⟨cpu, s.apu, _, rfl, rfl, nofun, ?_, trivial, nofun⟩
        simp [Booted, hpc]
  | access cpu =>
      simp only [step, access] at ht
      cases hpc : s.pc cpu with
      | idle | map | returned =>
          simp [hpc] at ht
      | read =>
          simp only [hpc] at ht
          have hcurrent : s.WritesBackCurrent (.access cpu) := by
            simp [WritesBackCurrent, hpc]
          split_ifs at ht with hreset
          · cases ht
            refine .inl ⟨cpu, s.apu, _, rfl, rfl, nofun, ?_, hcurrent, nofun⟩
            simp [Booted, hpc]
          · cases ht
            refine .inl ⟨cpu, s.apu, _, rfl, rfl, nofun, ?_, hcurrent, ?_⟩
            · simp [Booted, hpc]
            · intro v hv
              cases hv
              exact .inl rfl
      | writeLow initVal | writeHigh initVal =>
          simp only [hpc] at ht
          have hcurrent : s.WritesBackCurrent (.access cpu) := by
            simp [WritesBackCurrent, hpc]
          cases ht
          refine .inl ⟨cpu, _, _, rfl, rfl, nofun, ?_, hcurrent, ?_⟩
          · simp [Booted, hpc]
          · intro v hv
            rw [hpc]
            exact .inr hv
      | writeReset initVal =>
          simp only [hpc] at ht
          cases ht
          exact .inr ⟨cpu, initVal, rfl, hpc, rfl⟩

theorem Unaffected.step
    (hs : s.Unaffected init) (ht : step resetAddress s a = some t) :
    t.Unaffected init := by
  obtain ⟨cpu, apu, pc, rfl, happu, hpc, hbooted, -, hheld⟩ |
    ⟨cpu, v, -, hpc, rfl⟩ := step_cases ht
  · refine (hs.writeRvbar happu).goto hpc hbooted ?_
    intro v hv
    rw [happu]
    exact hheld v hv
  · exact hs.writeBack hpc

/-- Whether a step keeps the resets right depends on nothing but whether it
writes back what the register still holds. -/
theorem resetsRight_step
    (hs : s.Unaffected init) (hright : s.ResetsRight init)
    (ht : Booting.step resetAddress s a = some t) :
    t.ResetsRight init ↔ s.WritesBackCurrent a := by
  have hothers := (hs.step ht).register
  obtain ⟨cpu, apu, pc, rfl, happu, hpc, hbooted, hcurrent, -⟩ |
    ⟨cpu, v, rfl, hpc, rfl⟩ := step_cases ht
  · refine iff_of_true ⟨?_, hothers⟩ hcurrent
    intro cpu' hcpu'
    have hold : s.Booted cpu' := by
      by_cases hcpu : cpu' = cpu
      · subst hcpu
        exact absurd (by simpa [Booted, Booting.goto] using hcpu') hpc
      · simpa [Booted, Booting.goto, hcpu] using hcpu'
    have hclear := hright.cleared cpu' hold
    rw [← happu] at hclear
    exact hclear
  constructor
  · intro hafter v' hv'
    have hvv' : v' = v := by
      rw [hpc] at hv'
      exact (BootPc.writeReset.inj hv').symm
    subst hvv'
    -- a bit that differs belongs to a core that has been booted since the read
    apply BitVec.eq_of_getLsbD_eq
    intro k _
    by_cases hk : s.BootedBit k
    · obtain ⟨cpu', hbooted, hmask⟩ := hk
      have hne : cpu' ≠ cpu := by
        intro hcpu
        rw [hcpu, Booted, hpc] at hbooted
        cases hbooted
      have hbefore := congrArg (fun w => w.getLsbD k)
        (hright.cleared cpu' hbooted)
      have hbooted' : ({ s with apu := s.apu.deassertReset cpu v' }.goto cpu
          (.returned none)).Booted cpu' := by
        simpa [Booted, Booting.goto, hne] using hbooted
      have hclear := congrArg (fun w => w.getLsbD k)
        (hafter.cleared cpu' hbooted')
      have hbit := getLsbD_deassertReset s.apu cpu v' k
      rw [resetMask_disjoint hne hmask, Bool.not_false, Bool.and_true] at hbit
      simp only [BitVec.getLsbD_and, hmask, Bool.and_true] at hbefore hclear
      rw [← hbit]
      exact hclear.trans hbefore.symm
    · have hv : (s.pc cpu).initVal = some v' := by
        rw [hpc]
        rfl
      rw [hs.held cpu v' hv k hk, hs.register k hk]
  · intro hcurrent
    have hv := hcurrent v hpc
    subst hv
    refine ⟨?_, hothers⟩
    intro cpu' hbooted
    apply BitVec.eq_of_getLsbD_eq
    intro k _
    have hbit := getLsbD_deassertReset s.apu cpu s.apu.rstFpdApu k
    by_cases hcpu : cpu' = cpu
    · subst hcpu
      simp only [Booting.goto, BitVec.getLsbD_and]
      rw [hbit]
      simp
    · have hold : s.Booted cpu' := by
        simpa [Booted, Booting.goto, hcpu] using hbooted
      have hclear := congrArg (fun w => w.getLsbD k) (hright.cleared cpu' hold)
      simp only [BitVec.getLsbD_and] at hclear
      simp only [Booting.goto, BitVec.getLsbD_and]
      rw [hbit, Bool.and_right_comm, hclear]
      simp

end Steps

end Booting

/-- Concurrent calls keep the resets right all the time exactly when each
writes back the value that the register still holds. -/
theorem resetsRight_iff_writesBackCurrent
    (resetAddress : DomainIndex → BitVec 64) (apu : Apu)
    (schedule : List BootAction) :
    StepSystem.Throughout (Booting.step resetAddress) (.start apu) schedule
        (Booting.ResetsRight apu.rstFpdApu) ↔
      StepSystem.EachStep (Booting.step resetAddress) (.start apu) schedule
        Booting.WritesBackCurrent := by
  have hnone : ∀ cpu, ¬(Booting.start apu).Booted cpu := fun _ => nofun
  refine StepSystem.throughout_iff_eachStep
    (fun _ _ _ hs ht => Booting.Unaffected.step hs ht)
    (fun _ _ _ hs hright ht => Booting.resetsRight_step hs hright ht) ?_ ?_ _
  · exact ⟨fun _ _ => rfl, fun _ _ => nofun⟩
  · exact ⟨fun cpu hbooted => absurd hbooted (hnone cpu), fun _ _ => rfl⟩

/-- Cores 1 to 3 in reset. -/
def apuAfterReset : Apu where
  rstFpdApu := 0x380e
  rvbarAddr := fun _ => 0

/-- The second core's call reads the register before the first core's call
writes it back, and writes it back afterwards. -/
def overlappingBoots : List BootAction :=
  [.call .cpu1, .call .cpu2, .map .cpu1 true, .map .cpu2 true,
    .access .cpu1, .access .cpu2,
    .access .cpu1, .access .cpu1, .access .cpu1,
    .access .cpu2, .access .cpu2, .access .cpu2]

/-- Both calls succeed and the first core is in reset again. -/
theorem not_resetsRight_overlappingBoots :
    (StepSystem.run (Booting.step fun _ => 0) (.start apuAfterReset)
        overlappingBoots).any (fun s =>
          decide (s.Booted .cpu1) && decide (s.Booted .cpu2) &&
            s.apu.coreInReset .cpu1) = true ∧
      ¬StepSystem.Throughout (Booting.step fun _ => 0) (.start apuAfterReset)
        overlappingBoots (Booting.ResetsRight apuAfterReset.rstFpdApu) := by
  have hrun : (StepSystem.run (Booting.step fun _ => 0) (.start apuAfterReset)
      overlappingBoots).any (fun s =>
        decide (s.Booted .cpu1) && decide (s.Booted .cpu2) &&
          s.apu.coreInReset .cpu1) = true := by
    decide
  refine ⟨hrun, ?_⟩
  intro hall
  obtain ⟨s, hs, htest⟩ := (Option.any_eq_true _ _).mp hrun
  simp only [Bool.and_eq_true, decide_eq_true_eq] at htest
  have hclear := (hall _ s (List.prefix_refl _) hs).cleared .cpu1 htest.1.1
  simp [Apu.coreInReset, hclear] at htest

end Bmboot
