import Bmboot.Ipc
import Bmboot.Lib.StepSystem
import Mathlib.Data.Int.Basic
import Mathlib.Logic.Function.Basic

/-!
# Floating point registers across nested interrupts

The payload's exception vectors (`asm_vectors.S`, EL1 build) save the floating
point registers lazily: an interrupt handler starts with floating point access
disabled, its first floating point instruction traps, and the trap handler saves
the registers of the interrupted context to the array `FPUContext`.  The exit
from the interrupt restores them if the handler has enabled the access.
-/

namespace Bmboot

open StepSystem

/-! ## The vectors -/

def fpuContextSize : ℤ := 4224

/-- The bytes that `savefloatregister` stores. -/
def fpuFrameSize : ℤ := 528

/-- The payload's interrupts have eight priorities, and only an interrupt of a
higher priority interrupts a handler. -/
def maxActiveHandlers : ℕ := 8

/-- What `IRQInterruptHandler` keeps of the interrupted context: the enable bit
of `CPACR_EL1`, and, as history, the registers at that moment. -/
structure IrqFrame where
  fpen : Bool
  interrupted : Aarch64FpRegs

/-- The floating point state of the payload.  `FPUContextBase` is given relative
to `FPUContext`, and memory by the frames that start at each offset.  The last
three fields are history: how many handlers were active when the first floating
point instruction trapped, the offsets of the frames saved and restored, and
for each return from an interrupt the registers at the interrupt and at the
return. -/
structure FpuState where
  fpen : Bool
  fpuStatus : Bool
  fpuContextBase : ℤ
  frames : ℤ → Aarch64FpRegs
  regs : Aarch64FpRegs
  /-- Active interrupt handlers, innermost first. -/
  irqFrames : List IrqFrame
  firstUse : Option ℕ
  accesses : List ℤ
  resumed : List (Aarch64FpRegs × Aarch64FpRegs)

/-- The context that runs executes a floating point instruction, which traps or
has an effect on the registers, or it is interrupted, or it is a handler and
returns. -/
inductive FpuAction
  | trap
  | fp (effect : Aarch64FpRegs → Aarch64FpRegs)
  | irq
  | ret

namespace FpuState

/-- After `boot.S`: access is disabled and `FPUStatus` is cleared. -/
def boot (base : ℤ) (frames : ℤ → Aarch64FpRegs) (regs : Aarch64FpRegs) :
    FpuState where
  fpen := false
  fpuStatus := false
  fpuContextBase := base
  frames := frames
  regs := regs
  irqFrames := []
  firstUse := none
  accesses := []
  resumed := []

def savefloatregister (s : FpuState) : FpuState :=
  { s with
    frames := Function.update s.frames s.fpuContextBase s.regs
    fpuContextBase := s.fpuContextBase + fpuFrameSize
    accesses := s.accesses ++ [s.fpuContextBase] }

def restorefloatregister (s : FpuState) : FpuState :=
  { s with
    regs := s.frames (s.fpuContextBase - fpuFrameSize)
    fpuContextBase := s.fpuContextBase - fpuFrameSize
    accesses := s.accesses ++ [s.fpuContextBase - fpuFrameSize] }

/-- `SynchronousInterruptHandler` for a trapped floating point instruction. -/
def synchronousInterruptHandler (s : FpuState) : FpuState :=
  if s.fpuStatus then { s with fpen := true }.savefloatregister
  else
    { s with
      fpen := true
      fpuStatus := true
      fpuContextBase := 0
      firstUse := some s.irqFrames.length }

/-- `IRQInterruptHandler` up to the call of the handler. -/
def irqEntry (s : FpuState) : FpuState :=
  { s with
    fpen := false
    irqFrames := { fpen := s.fpen, interrupted := s.regs } :: s.irqFrames }

/-- `IRQInterruptHandler` behind the call of the handler. -/
def irqExit (s : FpuState) (f : IrqFrame) (rest : List IrqFrame) : FpuState :=
  let s := if s.fpen then s.restorefloatregister else s
  { s with
    fpen := f.fpen
    irqFrames := rest
    resumed := s.resumed ++ [(f.interrupted, s.regs)] }

def step (s : FpuState) : FpuAction → Option FpuState
  | .trap => if s.fpen then none else some s.synchronousInterruptHandler
  | .fp effect => if s.fpen then some { s with regs := effect s.regs } else none
  | .irq =>
      if s.irqFrames.length < maxActiveHandlers then some s.irqEntry else none
  | .ret =>
      match s.irqFrames with
      | [] => none
      | f :: rest => some (s.irqExit f rest)

/-- A frame at this offset lies in the array. -/
def InArray (offset : ℤ) : Prop :=
  0 ≤ offset ∧ offset + fpuFrameSize ≤ fpuContextSize

/-- So far every frame accessed lies in the array, and every interrupted context
has resumed with its own registers. -/
structure Clean (s : FpuState) : Prop where
  accesses : ∀ offset ∈ s.accesses, InArray offset
  resumed : ∀ r ∈ s.resumed, r.2 = r.1

/-- The floating point contexts survive. -/
structure ContextsSurvive (s : FpuState) : Prop extends Clean s where
  base : s.fpuStatus = true →
    0 ≤ s.fpuContextBase ∧ s.fpuContextBase ≤ fpuContextSize

/-- The handler that executes the first floating point instruction, if it is a
handler, does not return. -/
def FirstUserStays (s : FpuState) : FpuAction → Prop
  | .ret => s.firstUse ≠ some s.irqFrames.length
  | _ => True

end FpuState

/-! ## The stack of contexts -/

/-- How the contexts share the registers and the array, given who was first to
use floating point, from the running context outwards: its enable bit, its
registers, the end of the saved frames, and the interrupts it is nested in.  A
handler that has used floating point owns one frame, with the registers of the
context it interrupted; the first user has not saved any. -/
inductive StackOk (firstUse : Option ℕ) (frames : ℤ → Aarch64FpRegs) :
    Bool → Aarch64FpRegs → ℤ → List IrqFrame → Prop
  | main {fpen : Bool} {regs : Aarch64FpRegs}
      (hfirst : firstUse = some 0 → fpen = true) :
      StackOk firstUse frames fpen regs 0 []
  | untouched {base : ℤ} {f : IrqFrame} {rest : List IrqFrame}
      (hfirst : firstUse ≠ some (rest.length + 1))
      (hrest : StackOk firstUse frames f.fpen f.interrupted base rest) :
      StackOk firstUse frames false f.interrupted base (f :: rest)
  | owner {base : ℤ} {regs : Aarch64FpRegs} {f : IrqFrame}
      {rest : List IrqFrame} (hfirst : firstUse ≠ some (rest.length + 1))
      (hframe : frames base = f.interrupted)
      (hrest : StackOk firstUse frames f.fpen f.interrupted base rest) :
      StackOk firstUse frames true regs (base + fpuFrameSize) (f :: rest)
  | firstUser {regs : Aarch64FpRegs} {f : IrqFrame} {rest : List IrqFrame}
      (hfirst : firstUse = some (rest.length + 1))
      (hrest : StackOk firstUse frames f.fpen f.interrupted 0 rest) :
      StackOk firstUse frames true regs 0 (f :: rest)

namespace StackOk

variable {firstUse firstUse' : Option ℕ} {frames : ℤ → Aarch64FpRegs}
  {fpen : Bool} {regs : Aarch64FpRegs} {base : ℤ} {stack : List IrqFrame}

theorem bounds (h : StackOk firstUse frames fpen regs base stack) :
    0 ≤ base ∧ base ≤ fpuFrameSize * stack.length := by
  induction h with
  | main => simp
  | untouched hfirst hrest ih =>
      simp only [List.length_cons, fpuFrameSize] at ih ⊢
      omega
  | owner hfirst hframe hrest ih =>
      simp only [List.length_cons, fpuFrameSize] at ih ⊢
      omega
  | firstUser hfirst hrest ih =>
      simp only [List.length_cons, fpuFrameSize] at ih ⊢
      omega

/-- A frame saved behind all others leaves them alone. -/
theorem update {offset : ℤ} {saved : Aarch64FpRegs}
    (h : StackOk firstUse frames fpen regs base stack) (hle : base ≤ offset) :
    StackOk firstUse (Function.update frames offset saved) fpen regs base
      stack := by
  induction h with
  | main hfirst => exact .main hfirst
  | untouched hfirst hrest ih => exact .untouched hfirst (ih hle)
  | owner hfirst hframe hrest ih =>
      simp only [fpuFrameSize] at hle
      refine .owner hfirst ?_ (ih (by omega))
      rw [Function.update_of_ne (by omega), hframe]
  | firstUser hfirst hrest ih => exact .firstUser hfirst (ih hle)

/-- What matters about the first user is whether it is on the stack. -/
theorem congr_firstUse
    (h : StackOk firstUse frames fpen regs base stack)
    (hnone : ∀ d ≤ stack.length, firstUse ≠ some d)
    (hnone' : ∀ d ≤ stack.length, firstUse' ≠ some d) :
    StackOk firstUse' frames fpen regs base stack := by
  induction h with
  | main hfirst => exact .main fun h => absurd h (hnone' 0 (Nat.zero_le _))
  | untouched hfirst hrest ih =>
      refine .untouched (hnone' _ (Nat.le_refl _)) (ih ?_ ?_)
      · exact fun d hd => hnone d (Nat.le_succ_of_le hd)
      · exact fun d hd => hnone' d (Nat.le_succ_of_le hd)
  | owner hfirst hframe hrest ih =>
      refine .owner (hnone' _ (Nat.le_refl _)) hframe (ih ?_ ?_)
      · exact fun d hd => hnone d (Nat.le_succ_of_le hd)
      · exact fun d hd => hnone' d (Nat.le_succ_of_le hd)
  | firstUser hfirst hrest ih =>
      exact absurd hfirst (hnone _ (Nat.le_refl _))

/-- Saving makes the running handler the owner of a frame. -/
theorem save {regs' : Aarch64FpRegs}
    (h : StackOk firstUse frames false regs base stack)
    (hused : ∃ d, firstUse = some d ∧ d ≤ stack.length) :
    StackOk firstUse (Function.update frames base regs) true regs'
      (base + fpuFrameSize) stack := by
  cases h with
  | main hfirst =>
      obtain ⟨d, hd, hle⟩ := hused
      have hzero : d = 0 := Nat.le_zero.mp hle
      rw [hzero] at hd
      exact absurd (hfirst hd) (by decide)
  | untouched hfirst hrest =>
      exact .owner hfirst (Function.update_self ..) (hrest.update (Int.le_refl _))

variable {f : IrqFrame} {rest : List IrqFrame}

/-- A handler that has used floating point gives its frame back. -/
theorem restore
    (h : StackOk firstUse frames true regs base (f :: rest))
    (hfirst : firstUse ≠ some (rest.length + 1)) :
    frames (base - fpuFrameSize) = f.interrupted ∧
      StackOk firstUse frames f.fpen f.interrupted (base - fpuFrameSize)
        rest := by
  cases h with
  | @owner base _ _ _ _ hframe hrest =>
      have hbase : base + fpuFrameSize - fpuFrameSize = base := by omega
      rw [hbase]
      exact ⟨hframe, hrest⟩
  | firstUser hfirst' hrest => exact absurd hfirst' hfirst

/-- A handler that has not used floating point leaves the registers as it found
them. -/
theorem leave
    (h : StackOk firstUse frames false regs base (f :: rest)) :
    regs = f.interrupted ∧
      StackOk firstUse frames f.fpen f.interrupted base rest := by
  cases h with
  | untouched hfirst hrest => exact ⟨rfl, hrest⟩

/-- The first user has enabled the access and saved no frame. -/
theorem base_of_firstUser
    (h : StackOk firstUse frames fpen regs base (f :: rest))
    (hfirst : firstUse = some (rest.length + 1)) :
    fpen = true ∧ base = 0 := by
  cases h with
  | untouched hfirst' hrest => exact absurd hfirst hfirst'
  | owner hfirst' hframe hrest => exact absurd hfirst hfirst'
  | firstUser hfirst' hrest => exact ⟨rfl, rfl⟩

/-- A context that may use floating point may change the registers. -/
theorem of_regs {regs' : Aarch64FpRegs}
    (h : StackOk firstUse frames true regs base stack) :
    StackOk firstUse frames true regs' base stack := by
  cases h with
  | main hfirst => exact .main hfirst
  | owner hfirst hframe hrest => exact .owner hfirst hframe hrest
  | firstUser hfirst hrest => exact .firstUser hfirst hrest

end StackOk

namespace FpuState

variable {s t : FpuState} {a : FpuAction}

/-! ## The invariant -/

/-- The end of the saved frames; nothing has been saved before the first use. -/
def savedEnd (s : FpuState) : ℤ := if s.fpuStatus then s.fpuContextBase else 0

structure Inv (s : FpuState) : Prop where
  stack : StackOk s.firstUse s.frames s.fpen s.regs s.savedEnd s.irqFrames
  unused : s.fpuStatus = false →
    s.firstUse = none ∧ s.fpen = false ∧ ∀ f ∈ s.irqFrames, f.fpen = false
  used : s.fpuStatus = true →
    ∃ d, s.firstUse = some d ∧ d ≤ s.irqFrames.length
  depth : s.irqFrames.length ≤ maxActiveHandlers

theorem Inv.base_bounds (hinv : s.Inv) (hused : s.fpuStatus = true) :
    0 ≤ s.fpuContextBase ∧ s.fpuContextBase ≤ fpuContextSize := by
  have hbounds := hinv.stack.bounds
  have hdepth := hinv.depth
  rw [savedEnd, if_pos hused] at hbounds
  simp only [fpuFrameSize, fpuContextSize, maxActiveHandlers] at *
  omega

/-- Nobody who is not on the stack is the first user. -/
theorem Inv.firstUse_ne (hinv : s.Inv) {d : ℕ} (hd : s.irqFrames.length < d) :
    s.firstUse ≠ some d := by
  intro hfirst
  cases hused : s.fpuStatus with
  | false =>
      have hnone := (hinv.unused hused).1
      rw [hfirst] at hnone
      cases hnone
  | true =>
      obtain ⟨d', hd', hle⟩ := hinv.used hused
      have heq : d = d' := Option.some.inj (hfirst.symm.trans hd')
      omega

theorem inv_boot (base : ℤ) (frames : ℤ → Aarch64FpRegs)
    (regs : Aarch64FpRegs) : (boot base frames regs).Inv where
  stack := .main nofun
  unused _ := ⟨rfl, rfl, nofun⟩
  used := nofun
  depth := Nat.zero_le _

theorem clean_boot (base : ℤ) (frames : ℤ → Aarch64FpRegs)
    (regs : Aarch64FpRegs) : (boot base frames regs).Clean where
  accesses := nofun
  resumed := nofun

/-! ## Steps -/

/-- An access in the array keeps the run clean. -/
theorem inArray_append {accesses : List ℤ} {offset : ℤ}
    (hall : ∀ o ∈ accesses, InArray o) (hnew : InArray offset) :
    ∀ o ∈ accesses ++ [offset], InArray o := by
  intro o ho
  rcases List.mem_append.mp ho with hold | hlast
  · exact hall o hold
  · rw [List.mem_singleton] at hlast
    exact hlast ▸ hnew

theorem resumed_append {resumed : List (Aarch64FpRegs × Aarch64FpRegs)}
    {regs : Aarch64FpRegs} (hall : ∀ r ∈ resumed, r.2 = r.1) :
    ∀ r ∈ resumed ++ [(regs, regs)], r.2 = r.1 := by
  intro r hr
  rcases List.mem_append.mp hr with hold | hlast
  · exact hall r hold
  · rw [List.mem_singleton] at hlast
    rw [hlast]

/-- The first floating point instruction of the run. -/
theorem inv_firstTrap (hinv : s.Inv) (hunused : s.fpuStatus = false) :
    s.synchronousInterruptHandler.Inv := by
  have hstack := hinv.stack
  obtain ⟨hnone, hdisabled, hframes⟩ := hinv.unused hunused
  rw [savedEnd, hunused, hnone, hdisabled] at hstack
  have heq : s.synchronousInterruptHandler =
      { s with
        fpen := true
        fpuStatus := true
        fpuContextBase := 0
        firstUse := some s.irqFrames.length } := by
    rw [synchronousInterruptHandler, hunused]
    rfl
  rw [heq]
  refine ⟨?_, nofun, fun _ => ⟨_, rfl, Nat.le_refl _⟩, hinv.depth⟩
  change StackOk (some s.irqFrames.length) s.frames true s.regs 0 s.irqFrames
  generalize s.irqFrames = stack at hstack
  generalize s.regs = regs at hstack
  cases hstack with
  | main hfirst => exact .main fun _ => rfl
  | @untouched _ f rest hfirst hrest =>
      refine .firstUser rfl (hrest.congr_firstUse (fun _ _ => nofun) ?_)
      intro d hd heq
      have hlength := Option.some.inj heq
      rw [List.length_cons] at hlength
      omega

/-- A handler's first floating point instruction saves the registers of the
context it has interrupted. -/
theorem inv_savingTrap (hinv : s.Inv) (hclean : s.Clean)
    (hused : s.fpuStatus = true) (hdisabled : s.fpen = false) :
    s.synchronousInterruptHandler.Inv ∧
      s.synchronousInterruptHandler.Clean := by
  have hstack := hinv.stack
  rw [savedEnd, if_pos hused, hdisabled] at hstack
  have hsaved : StackOk s.firstUse
      (Function.update s.frames s.fpuContextBase s.regs) true s.regs
      (s.fpuContextBase + fpuFrameSize) s.irqFrames :=
    hstack.save (hinv.used hused)
  have heq : s.synchronousInterruptHandler =
      { s with fpen := true }.savefloatregister := by
    rw [synchronousInterruptHandler, if_pos hused]
  rw [heq]
  constructor
  · refine ⟨?_, ?_, hinv.used, hinv.depth⟩
    · simp only [savefloatregister, savedEnd, hused, if_true]
      exact hsaved
    · intro hunused
      exact absurd (hused.symm.trans hunused) (by decide)
  · refine ⟨inArray_append hclean.accesses ?_, hclean.resumed⟩
    have hlow := hstack.bounds.1
    have hhigh := hsaved.bounds.2
    have hdepth := hinv.depth
    simp only [InArray, fpuFrameSize, fpuContextSize, maxActiveHandlers]
      at hhigh hdepth ⊢
    omega

/-- The return from an interrupt whose handler is not the first user. -/
theorem inv_irqExit (hinv : s.Inv) (hclean : s.Clean) {f : IrqFrame}
    {rest : List IrqFrame} (hframes : s.irqFrames = f :: rest)
    (hfirst : s.firstUse ≠ some s.irqFrames.length) :
    (s.irqExit f rest).Inv ∧ (s.irqExit f rest).Clean := by
  have hstack := hinv.stack
  have hdepth := hinv.depth
  rw [hframes] at hstack hdepth hfirst
  have hused : s.fpuStatus = true →
      ∃ d, s.firstUse = some d ∧ d ≤ rest.length := by
    intro hstatus
    obtain ⟨d, hd, hle⟩ := hinv.used hstatus
    refine ⟨d, hd, ?_⟩
    have hne : d ≠ rest.length + 1 := by
      rintro rfl
      exact hfirst hd
    rw [hframes, List.length_cons] at hle
    omega
  have hdepth' : rest.length ≤ maxActiveHandlers := Nat.le_of_succ_le hdepth
  have hunused : s.fpuStatus = false → s.firstUse = none ∧ f.fpen = false ∧
      ∀ g ∈ rest, g.fpen = false := by
    intro hstatus
    obtain ⟨hnone, -, hall⟩ := hinv.unused hstatus
    rw [hframes] at hall
    exact ⟨hnone, hall f List.mem_cons_self,
      fun g hg => hall g (List.mem_cons_of_mem _ hg)⟩
  cases hfpen : s.fpen with
  | false =>
      rw [hfpen] at hstack
      obtain ⟨hregs, hrest⟩ := hstack.leave
      have heq : s.irqExit f rest =
          { s with
            fpen := f.fpen
            irqFrames := rest
            resumed := s.resumed ++ [(f.interrupted, s.regs)] } := by
        simp [irqExit, hfpen]
      rw [heq]
      refine ⟨⟨?_, hunused, hused, hdepth'⟩, hclean.accesses, ?_⟩
      · rw [← hregs] at hrest
        exact hrest
      · rw [← hregs]
        exact resumed_append hclean.resumed
  | true =>
      have hstatus : s.fpuStatus = true := by
        by_contra hnot
        rw [Bool.not_eq_true] at hnot
        have hdisabled := (hinv.unused hnot).2.1
        exact absurd (hfpen.symm.trans hdisabled) (by decide)
      rw [hfpen, savedEnd, if_pos hstatus] at hstack
      obtain ⟨hframe, hrest⟩ := hstack.restore hfirst
      have heq : s.irqExit f rest =
          { s.restorefloatregister with
            fpen := f.fpen
            irqFrames := rest
            resumed := s.resumed ++
              [(f.interrupted, s.restorefloatregister.regs)] } := by
        simp only [irqExit, hfpen, if_true]
        rfl
      have hregs : s.restorefloatregister.regs = f.interrupted := hframe
      rw [heq, hregs]
      refine ⟨⟨?_, hunused, hused, hdepth'⟩, ?_, resumed_append hclean.resumed⟩
      · simp only [savedEnd, restorefloatregister, hstatus, if_true, hframe]
        exact hrest
      · refine inArray_append hclean.accesses ?_
        obtain ⟨hlow, hhigh⟩ := hrest.bounds
        simp only [InArray, fpuFrameSize, fpuContextSize, maxActiveHandlers,
          List.length_cons] at hlow hhigh hdepth ⊢
        omega

/-- The return of the first user reads a frame in front of the array. -/
theorem not_clean_irqExit (hinv : s.Inv) {f : IrqFrame} {rest : List IrqFrame}
    (hframes : s.irqFrames = f :: rest)
    (hfirst : s.firstUse = some s.irqFrames.length) :
    ¬(s.irqExit f rest).Clean := by
  have hstack := hinv.stack
  have hstatus : s.fpuStatus = true := by
    by_contra hnot
    rw [Bool.not_eq_true] at hnot
    have hnone := (hinv.unused hnot).1
    rw [hfirst] at hnone
    cases hnone
  rw [hframes] at hstack hfirst
  rw [savedEnd, if_pos hstatus] at hstack
  obtain ⟨hfpen, hbase⟩ := hstack.base_of_firstUser hfirst
  intro hclean
  have haccess : s.fpuContextBase - fpuFrameSize ∈
      (s.irqExit f rest).accesses := by
    simp [irqExit, hfpen, restorefloatregister]
  have hin := (hclean.accesses _ haccess).1
  rw [hbase] at hin
  exact absurd hin (by decide)

theorem inv_step (hinv : s.Inv) (hclean : s.Clean)
    (hstays : s.FirstUserStays a) (h : s.step a = some t) :
    t.Inv ∧ t.Clean := by
  cases a with
  | trap =>
      simp only [step, Option.ite_none_left_eq_some, Option.some.injEq] at h
      obtain ⟨hfpen, rfl⟩ := h
      rw [Bool.not_eq_true] at hfpen
      cases hstatus : s.fpuStatus with
      | false =>
          refine ⟨inv_firstTrap hinv hstatus, ?_⟩
          rw [synchronousInterruptHandler, hstatus]
          exact ⟨hclean.accesses, hclean.resumed⟩
      | true => exact inv_savingTrap hinv hclean hstatus hfpen
  | fp effect =>
      simp only [step, Option.ite_none_right_eq_some, Option.some.injEq] at h
      obtain ⟨hfpen, rfl⟩ := h
      have hstack := hinv.stack
      rw [hfpen] at hstack
      refine ⟨⟨?_, hinv.unused, hinv.used, hinv.depth⟩, hclean.accesses,
        hclean.resumed⟩
      rw [hfpen]
      exact hstack.of_regs
  | irq =>
      simp only [step, Option.ite_none_right_eq_some, Option.some.injEq] at h
      obtain ⟨hroom, rfl⟩ := h
      refine ⟨⟨?_, ?_, ?_, hroom⟩, hclean.accesses, hclean.resumed⟩
      · exact .untouched (f := { fpen := s.fpen, interrupted := s.regs })
          (hinv.firstUse_ne (Nat.lt_succ_self _)) hinv.stack
      · intro hstatus
        obtain ⟨hnone, hdisabled, hall⟩ := hinv.unused hstatus
        refine ⟨hnone, rfl, ?_⟩
        intro f hf
        rcases List.mem_cons.mp hf with rfl | hold
        · exact hdisabled
        · exact hall f hold
      · intro hstatus
        obtain ⟨d, hd, hle⟩ := hinv.used hstatus
        exact ⟨d, hd, Nat.le_succ_of_le hle⟩
  | ret =>
      simp only [step] at h
      split at h
      · cases h
      next f rest hframes =>
        cases h
        exact inv_irqExit hinv hclean hframes hstays

/-- The history only grows. -/
theorem history_step (h : s.step a = some t) :
    s.accesses <+: t.accesses ∧ s.resumed <+: t.resumed := by
  cases a with
  | trap =>
      simp only [step, Option.ite_none_left_eq_some, Option.some.injEq] at h
      obtain ⟨-, rfl⟩ := h
      rw [synchronousInterruptHandler]
      split
      · exact ⟨List.prefix_append _ _, List.prefix_refl _⟩
      · exact ⟨List.prefix_refl _, List.prefix_refl _⟩
  | fp effect =>
      simp only [step, Option.ite_none_right_eq_some, Option.some.injEq] at h
      obtain ⟨-, rfl⟩ := h
      exact ⟨List.prefix_refl _, List.prefix_refl _⟩
  | irq =>
      simp only [step, Option.ite_none_right_eq_some, Option.some.injEq] at h
      obtain ⟨-, rfl⟩ := h
      exact ⟨List.prefix_refl _, List.prefix_refl _⟩
  | ret =>
      simp only [step] at h
      split at h
      · cases h
      next f rest hframes =>
        cases h
        rw [irqExit]
        split
        · exact ⟨List.prefix_append _ _, List.prefix_append _ _⟩
        · exact ⟨List.prefix_refl _, List.prefix_append _ _⟩

/-- The first user stays the same. -/
theorem firstUse_step {d : ℕ}
    (hs : s.fpuStatus = true ∧ s.firstUse = some d) (h : s.step a = some t) :
    t.fpuStatus = true ∧ t.firstUse = some d := by
  cases a with
  | trap =>
      simp only [step, Option.ite_none_left_eq_some, Option.some.injEq] at h
      obtain ⟨-, rfl⟩ := h
      rw [synchronousInterruptHandler, if_pos hs.1]
      exact hs
  | fp effect =>
      simp only [step, Option.ite_none_right_eq_some, Option.some.injEq] at h
      obtain ⟨-, rfl⟩ := h
      exact hs
  | irq =>
      simp only [step, Option.ite_none_right_eq_some, Option.some.injEq] at h
      obtain ⟨-, rfl⟩ := h
      exact hs
  | ret =>
      simp only [step] at h
      split at h
      · cases h
      next f rest hframes =>
        cases h
        rw [irqExit]
        split <;> exact hs

/-- Nothing that went wrong is forgotten. -/
theorem Clean.of_step (hclean : t.Clean) (h : s.step a = some t) :
    s.Clean := by
  obtain ⟨haccesses, hresumed⟩ := history_step h
  exact ⟨fun offset ho => hclean.accesses offset (haccesses.subset ho),
    fun r hr => hclean.resumed r (hresumed.subset hr)⟩

theorem not_clean_step (hinv : s.Inv) (hreturns : ¬s.FirstUserStays a)
    (h : s.step a = some t) : ¬t.Clean := by
  cases a with
  | ret =>
      simp only [step] at h
      split at h
      · cases h
      next f rest hframes =>
        cases h
        exact not_clean_irqExit hinv hframes (not_not.mp hreturns)
  | trap => exact absurd trivial hreturns
  | fp effect => exact absurd trivial hreturns
  | irq => exact absurd trivial hreturns

/-- As long as nothing has gone wrong, the invariant holds. -/
theorem inv_of_clean_step (hinv : s.Clean → s.Inv)
    (h : s.step a = some t) (hclean : t.Clean) : t.Inv := by
  have hclean' := hclean.of_step h
  by_cases hstays : s.FirstUserStays a
  · exact (inv_step (hinv hclean') hclean' hstays h).1
  · exact absurd hclean (not_clean_step (hinv hclean') hstays h)

/-- When the main program was first, nobody else is. -/
theorem firstUserStays_of_main (hfirst : s.firstUse = some 0)
    (h : s.step a = some t) : s.FirstUserStays a := by
  cases a with
  | ret =>
      simp only [step] at h
      split at h
      · cases h
      next f rest hframes => simp [FirstUserStays, hfirst, hframes]
  | trap => trivial
  | fp effect => trivial
  | irq => trivial

theorem Inv.contextsSurvive (hinv : s.Inv) (hclean : s.Clean) :
    s.ContextsSurvive :=
  { hclean with base := hinv.base_bounds }

/-- The main program was the first to use floating point. -/
structure MainFirst (s : FpuState) : Prop where
  inv : s.Inv
  clean : s.Clean
  status : s.fpuStatus = true
  firstUse : s.firstUse = some 0

/-- A main program that uses floating point before it is interrupted is safe. -/
theorem throughout_contextsSurvive_of_mainFirst
    (base : ℤ) (frames : ℤ → Aarch64FpRegs) (regs : Aarch64FpRegs)
    (schedule : List FpuAction) :
    Throughout step (boot base frames regs) (.trap :: schedule)
      ContextsSurvive := by
  have hinv := inv_boot base frames regs
  have hclean := clean_boot base frames regs
  intro before t hpart hrun
  cases before with
  | nil =>
      cases hrun
      exact hinv.contextsSurvive hclean
  | cons b before =>
      obtain ⟨s, hs, hrest⟩ := run_cons_eq_some.mp hrun
      have hb : b = .trap := List.head_eq_of_cons_eq hpart.choose_spec
      subst hb
      obtain ⟨hinv', hclean'⟩ :=
        inv_step (a := .trap) hinv hclean trivial hs
      cases hs
      have hmain : MainFirst t := by
        refine run_preserves ?_ ⟨hinv', hclean', rfl, rfl⟩ hrest
        intro s a t hs h
        have hstays := firstUserStays_of_main hs.firstUse h
        obtain ⟨hinv, hclean⟩ := inv_step hs.inv hs.clean hstays h
        obtain ⟨hstatus, hfirst⟩ := firstUse_step ⟨hs.status, hs.firstUse⟩ h
        exact ⟨hinv, hclean, hstatus, hfirst⟩
      exact hmain.inv.contextsSurvive hmain.clean

end FpuState

/-- In a run with at most eight active handlers the array is never left and
every interrupted context resumes with its floating point registers, exactly
when no handler returns that has executed the first floating point instruction
of the run. -/
theorem contextsSurvive_iff_firstUserStays
    (base : ℤ) (frames : ℤ → Aarch64FpRegs) (regs : Aarch64FpRegs)
    (schedule : List FpuAction) :
    Throughout FpuState.step (.boot base frames regs) schedule
        FpuState.ContextsSurvive ↔
      EachStep FpuState.step (.boot base frames regs) schedule
        FpuState.FirstUserStays := by
  have hinv := FpuState.inv_boot base frames regs
  have hclean := FpuState.clean_boot base frames regs
  refine throughout_iff_eachStep
    (fun s a t (hinv : s.Clean → s.Inv) h => FpuState.inv_of_clean_step hinv h)
    ?_ (fun _ => hinv) (hinv.contextsSurvive hclean) schedule
  intro s a t hinv hsurvive h
  constructor
  · intro hsurvive'
    by_contra hreturns
    exact FpuState.not_clean_step (hinv hsurvive.toClean) hreturns h
      hsurvive'.toClean
  · intro hstays
    obtain ⟨hinv', hclean'⟩ :=
      FpuState.inv_step (hinv hsurvive.toClean) hsurvive.toClean hstays h
    exact hinv'.contextsSurvive hclean'

/-- The main program has not used floating point yet when it is interrupted by a
handler that does. -/
def handlerFirst : List FpuAction := [.irq, .trap, .fp id, .ret]

/-- The return from the interrupt reads the frame in front of the array. -/
theorem not_contextsSurvive_handlerFirst :
    ¬∀ base frames regs schedule,
      Throughout FpuState.step (.boot base frames regs) schedule
        FpuState.ContextsSurvive := by
  intro hsurvive
  let regs := IpcBlock.zero.executorToManager.fpregs
  have hrun : (run FpuState.step (.boot 0 (fun _ => regs) regs)
      handlerFirst).any (fun t => decide (-528 ∈ t.accesses)) = true := by
    decide
  obtain ⟨t, ht, htest⟩ := (Option.any_eq_true _ _).mp hrun
  have hclean := hsurvive 0 (fun _ => regs) regs handlerFirst handlerFirst t
    (List.prefix_refl _) ht
  have hin := hclean.accesses (-528) (of_decide_eq_true htest)
  exact absurd hin.1 (by decide)

end Bmboot
