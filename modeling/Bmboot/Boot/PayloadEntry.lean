import Bmboot.Boot.CacheInvalidation
import Bmboot.Boot.TranslationTable
import Bmboot.Lib.A64
import Bmboot.Lib.Routine

/-!
# Entering a payload

From `enterEL1Payload` (`monitor_asm.S`) through `_boot` (`boot.S`, EL1 build) and
`_startup` (`xil-crt0.S`) to the first constructor of the payload.  Nothing is
reset in between: what an earlier payload has left in the core or in memory is
still there, unless this code overwrites it.
-/

namespace Bmboot

open A64 ByteCodec ByteMemory Routine

/-! ## The code -/

/-- The system registers that the code writes; the others are numbered. -/
inductive BootReg
  | scrEl3
  | hcrEl2
  | spsrEl3
  | elrEl3
  | currentEl
  | daif
  | vbarEl1
  | cpacrEl1
  | sctlrEl1
  | csselrEl1
  | ttbr0El1
  | mairEl1
  | tcrEl1
  | other (n : ℕ)
  deriving DecidableEq

/-- The core.  The stack pointer is that of EL1; the monitor's is among the other
registers. -/
abbrev EntryCpu := Processor BootReg

/-- The sections that `_startup` clears. -/
inductive BssArea
  | sbss
  | bss
  deriving DecidableEq

/-- The addresses that the linker gives a payload (`payload.ld.in`). -/
structure PayloadSymbols where
  vectorTable : BitVec 64
  boot : BitVec 64
  /-- Where `invalidate_dcaches` and `_startup` are to return to. -/
  invalidateReturn : BitVec 64
  startupReturn : BitVec 64
  fpuStatus : BitVec 64
  el1Stack : BitVec 64
  l0Table : BitVec 64
  first : BssArea → ℕ
  last : BssArea → ℕ
  first_le_last : ∀ area, first area ≤ last area
  last_lt : ∀ area, last area < 2 ^ 40

/-- What `invalidate_dcaches` leaves in the registers, given what it finds there,
for the caches of the core; `CSSELR_EL1` is only written if there is a data cache. -/
structure DcachesEffect where
  x : (Fin 31 → BitVec 64) → Fin 31 → BitVec 64
  csselr : Option (BitVec 64)

/-- `enterEL1Payload` up to `eret`. -/
def enterEl1Payload : List (Instr BootReg) :=
  [.movImm 1 0, .orrImm 1 1 (1#64 <<< 10), .orrImm 1 1 (1#64 <<< 3),
    .orrImm 1 1 (1#64 <<< 2), .orrImm 1 1 (1#64 <<< 0), .msr .scrEl3 1,
    .movImm 1 0, .orrImm 1 1 (1#64 <<< 31), .msr .hcrEl2 1,
    .movImm 1 0x30C50838, .msr .sctlrEl1 1,
    .movImm 1 0b00101, .msr .spsrEl3 1,
    .msr .elrEl3 0]

/-- `eret` sets the exception level and the masks from `SPSR_EL3`. -/
def eretEl3 (s : EntryCpu) : EntryCpu :=
  { s with
    sys := Function.update
      (Function.update s.sys .currentEl (s.sys .spsrEl3 &&& 0xC))
      .daif (s.sys .spsrEl3 &&& 0x3C0) }

/-- `mov xn, #0` for every register. -/
def clearRegisters : List (Instr BootReg) :=
  (List.finRange 31).map fun i => .movImm i 0

namespace PayloadSymbols

variable (sym : PayloadSymbols)

/-- `InitEL1` up to the clearing of `FPUStatus`. -/
def initVectors : List (Instr BootReg) :=
  [.movImm 1 sym.vectorTable, .msr .vbarEl1 1,
    .mrs 0 .cpacrEl1, .bicImm 0 0 (0x3#64 <<< 20), .msr .cpacrEl1 0,
    .movImm 0 sym.fpuStatus]

/-- The stack pointer, the MMU off, and the call of `invalidate_dcaches`. -/
def initStack : List (Instr BootReg) :=
  [.movImm 2 sym.el1Stack, .addImm .sp (.x 2) 0,
    .movImm 1 0, .msr .sctlrEl1 1,
    .movImm 30 sym.invalidateReturn]

/-- The translation tables, the mask of SErrors, the MMU and the caches on, and
the call of `_startup`. -/
def initMmu : List (Instr BootReg) :=
  [.movImm 1 sym.l0Table, .msr .ttbr0El1 1,
    .movImm 1 (BitVec.ofNat 64 mairValue), .msr .mairEl1 1,
    .movImm 1 (BitVec.ofNat 64 tcrEl1), .msr .tcrEl1 1,
    .mrs 1 .daif, .bicImm 1 1 (0x1#64 <<< 8), .msr .daif 1,
    .movImm 1 0, .orrImm 1 1 (1#64 <<< 18), .orrImm 1 1 (1#64 <<< 17),
    .orrImm 1 1 (1#64 <<< 5), .orrImm 1 1 (1#64 <<< 12), .orrImm 1 1 (1#64 <<< 2),
    .orrImm 1 1 (1#64 <<< 0), .msr .sctlrEl1 1,
    .movImm 30 sym.startupReturn]

/-- The bounds of an area that is to be cleared. -/
def loadBounds (area : BssArea) : List (Instr BootReg) :=
  [.movImm 1 (BitVec.ofNat 64 (sym.first area)),
    .movImm 2 (BitVec.ofNat 64 (sym.last area))]

/-- `str xzr, [x0]`. -/
def clearFpuStatus (s : EntryCpu) : EntryCpu :=
  s.store (s.x 0) (wordBytes 8 (0 : BitVec 64))

end PayloadSymbols

/-- `invalidate_dcaches`.  Memory is coherent here: the lines that it cleans and
invalidates do not show. -/
def DcachesEffect.apply (dcaches : DcachesEffect) (s : EntryCpu) : EntryCpu :=
  { s with
    x := dcaches.x s.x
    sys := dcaches.csselr.elim s.sys (Function.update s.sys .csselrEl1) }

/-! ## The registers that `invalidate_dcaches` writes -/

/-- One effect after the other. -/
def DcachesEffect.andThen (first second : DcachesEffect) : DcachesEffect where
  x := fun x => second.x (first.x x)
  csselr := second.csselr.or first.csselr

theorem DcachesEffect.apply_andThen (first second : DcachesEffect) (s : EntryCpu) :
    (first.andThen second).apply s = second.apply (first.apply s) := by
  have hsys : ∀ (a b : Option (BitVec 64)) (sys : BootReg → BitVec 64),
      (b.or a).elim sys (Function.update sys .csselrEl1) =
        b.elim (a.elim sys (Function.update sys .csselrEl1))
          (Function.update (a.elim sys (Function.update sys .csselrEl1)) .csselrEl1) := by
    intro a b sys
    cases b with
    | none => rfl
    | some value =>
        cases a with
        | none => rfl
        | some earlier => exact (Function.update_idem _ _ _).symm
  simp only [apply, andThen, hsys]

namespace CacheRegisters

variable (c : CacheRegisters)

/-- What a block of the routine writes to the registers of the core.  A write of
32 bits clears the upper half. -/
def block : InvalidatePc → DcachesEffect
  | .start =>
      let w2 := ubfx c.clidr 24 3
      { x := fun x =>
          let x := Function.update x 0 (c.clidr.setWidth 64)
          let x := Function.update x 2 (w2.setWidth 64)
          if w2 = 0 then x else Function.update x 1 0
        csselr := none }
  | .flushLevel w1 _ =>
      let type := ubfx (lsr c.clidr (w1 + w1 <<< 1)) 0 3
      if type.slt 2 then
        { x := fun x => Function.update x 3 (type.setWidth 64), csselr := none }
      else
        let x4 := c.ccsidr (w1 <<< 1)
        let w4 := ubfx x4 3 10
        { x := fun x =>
            let x := Function.update x 3 ((ubfx x4 0 3 + 2).setWidth 64)
            let x := Function.update x 5 ((ubfx x4 13 15).setWidth 64)
            let x := Function.update x 4 (w4.setWidth 64)
            Function.update x 6 ((clz w4).setWidth 64)
          csselr := some ((w1 <<< 1).setWidth 64) }
  | .flushSet regs =>
      { x := fun x => Function.update x 8 (regs.w4.setWidth 64), csselr := none }
  | .flushWay regs w8 =>
      { x := fun x =>
          let x := Function.update x 7 ((regs.w7 w8).setWidth 64)
          let x := Function.update x 9 ((lsl w8 regs.w6).setWidth 64)
          let x := Function.update x 8 ((w8 - 1).setWidth 64)
          if BitVec.slt 0 w8 then x
          else Function.update x 5 ((regs.w5 - 1).setWidth 64)
        csselr := none }
  | .nextLevel w1 _ =>
      { x := fun x => Function.update x 1 ((w1 + 1).setWidth 64), csselr := none }

/-- The routine on the registers of the core, next to its operands. -/
def stepOnCore (s : List (BitVec 32) × EntryCpu) (pc : InvalidatePc) :
    (List (BitVec 32) × EntryCpu) × Next InvalidatePc Unit :=
  (((c.step s.1 pc).1, (c.block pc).apply s.2), (c.step s.1 pc).2)

variable {c}

/-- What the routine leaves in the registers does not depend on what `CSSELR_EL1`
held, nor on anything but the general registers. -/
theorem exists_dcachesEffect {log log' : List (BitVec 32)}
    {pc : InvalidatePc} (h : Completes c.step log pc log' ()) :
    ∃ dcaches : DcachesEffect, ∀ s,
      Completes c.stepOnCore (log, s) pc (log', dcaches.apply s) () := by
  generalize hunit : () = r at h
  induction h with
  | @ret log log' pc r hstep =>
      refine ⟨c.block pc, fun s => .ret ?_⟩
      rw [stepOnCore, hstep]
  | @goto log mid log' pc next r hstep hrest ih =>
      obtain ⟨rest, hcompletes⟩ := ih hunit
      refine ⟨(c.block pc).andThen rest, fun s => ?_⟩
      rw [DcachesEffect.apply_andThen]
      refine .goto ?_ (hcompletes _)
      rw [stepOnCore, hstep]

/-- The routine has the effect that the code of a payload relies on, whatever the
caches are. -/
theorem invalidateDcaches_onCore (c : CacheRegisters) :
    ∃ dcaches : DcachesEffect, ∀ s,
      Completes c.stepOnCore ([], s) .start
        ((List.range c.levels).flatMap c.levelOperands, dcaches.apply s) () :=
  exists_dcachesEffect c.invalidateDcaches_completes

end CacheRegisters

/-! ## The blocks of the code -/

/-- Where the core is. -/
inductive EntryPc
  | enterEl1Payload
  | thunk
  | boot
  | initEl1
  | startup
  | clear (area : BssArea)
  | error
  deriving DecidableEq

/-- One block of instructions.  The build for EL1 has no code for EL3. -/
def PayloadSymbols.step (sym : PayloadSymbols) (dcaches : DcachesEffect)
    (s : EntryCpu) : EntryPc → EntryCpu × Next EntryPc Unit
  | .enterEl1Payload =>
      (eretEl3 (exec (.movImm 0 sym.vectorTable :: enterEl1Payload) s), .goto .thunk)
  | .thunk => (exec [.movImm 16 sym.boot] s, .goto .boot)
  | .boot =>
      let s := exec (clearRegisters ++ [.mrs 0 .currentEl]) s
      if s.x 0 = 0xC then (s, .goto .error)
      else if s.x 0 = 0x4 then (s, .goto .initEl1)
      else (s, .goto .error)
  | .initEl1 =>
      let s := PayloadSymbols.clearFpuStatus (exec sym.initVectors s)
      let s := dcaches.apply (exec sym.initStack s)
      (exec sym.initMmu s, .goto .startup)
  | .startup =>
      (exec (.movImm 0 0 :: sym.loadBounds .sbss) s, .goto (.clear .sbss))
  | .clear area =>
      -- `bge` looks at the signs: the addresses are far below 2 ^ 63.
      if (s.x 1).slt (s.x 2) then
        (exec [.str 0 (.post (.x 1) 8)] s, .goto (.clear area))
      else
        match area with
        | .sbss => (exec (sym.loadBounds .bss) s, .goto (.clear .bss))
        | .bss => (s, .ret ())
  | .error => (s, .goto .error)

/-! ## Clearing an area -/

/-- How many words from `first` on are cleared. -/
def PayloadSymbols.words (sym : PayloadSymbols) (area : BssArea) : ℕ :=
  (sym.last area - sym.first area + 7) / 8

namespace PayloadSymbols

variable {sym : PayloadSymbols} {dcaches : DcachesEffect} {s t : EntryCpu}
  {area : BssArea}

theorem slt_ofNat_64 {m n : ℕ} (hm : m < 2 ^ 63) (hn : n < 2 ^ 63) :
    (BitVec.ofNat 64 m).slt (BitVec.ofNat 64 n) = decide (m < n) := by
  have hm' : (BitVec.ofNat 64 m).toInt = m := by
    rw [BitVec.toInt_eq_toNat_of_lt] <;> rw [BitVec.toNat_ofNat] <;> omega
  have hn' : (BitVec.ofNat 64 n).toInt = n := by
    rw [BitVec.toInt_eq_toNat_of_lt] <;> rw [BitVec.toNat_ofNat] <;> omega
  rw [BitVec.slt, hm', hn', decide_eq_decide]
  omega

/-- One round of the loop. -/
theorem exec_clearWord (h0 : s.x 0 = 0) :
    exec [.str 0 (.post (.x 1) 8)] s =
      { s with
        x := Function.update s.x 1 (s.x 1 + 8#64)
        mem := clear s.mem (s.x 1) 8 } := by
  have hzero : wordBytes 8 (0 : BitVec 64) = List.replicate 8 0 := by decide
  have h8 : BitVec.ofInt 64 8 = 8#64 := by decide
  simp only [exec, List.foldl_cons, List.foldl_nil, Instr.exec, Processor.writeBack,
    Processor.setBase, Processor.setX, Processor.store, Processor.address,
    Processor.base, h0, hzero, h8, write_replicate_zero]

/-- The loop clears `n` words from `first` on, if it is not left earlier. -/
theorem clear_loop (first n : ℕ) {last : ℕ} (h0 : s.x 0 = 0)
    (h1 : s.x 1 = BitVec.ofNat 64 first) (h2 : s.x 2 = BitVec.ofNat 64 last)
    (hfirst : first + 8 * n < 2 ^ 62) (hlast : last < 2 ^ 62)
    (hn : ∀ i < n, first + 8 * i < last)
    (hrest : Completes (sym.step dcaches)
      { s with
        x := Function.update s.x 1 (BitVec.ofNat 64 (first + 8 * n))
        mem := clear s.mem (BitVec.ofNat 64 first) (8 * n) }
      (.clear area) t ()) :
    Completes (sym.step dcaches) s (.clear area) t () := by
  induction n generalizing s first with
  | zero =>
      have hsame : Function.update s.x 1 (BitVec.ofNat 64 (first + 8 * 0)) = s.x := by
        rw [Nat.mul_zero, Nat.add_zero, ← h1, Function.update_eq_self]
      rw [hsame, Nat.mul_zero, clear_zero] at hrest
      exact hrest
  | succ n ih =>
      have hlt : (s.x 1).slt (s.x 2) = true := by
        have hfirst' := hn 0 (Nat.succ_pos n)
        rw [h1, h2, slt_ofNat_64 (by omega) (by omega)]
        exact decide_eq_true hfirst'
      have hstep : sym.step dcaches s (.clear area) =
          (exec [.str 0 (.post (.x 1) 8)] s, .goto (.clear area)) := if_pos hlt
      rw [exec_clearWord h0] at hstep
      refine .goto hstep (ih (first + 8) ?_ ?_ ?_ ?_ ?_ ?_)
      · exact h0
      · simp only [Function.update_self]
        rw [h1, BitVec.ofNat_add]
      · exact h2
      · omega
      · intro i hi
        have hnext := hn (i + 1) (Nat.succ_lt_succ hi)
        omega
      · have hbound : first + 8 + 8 * n = first + 8 * (n + 1) := by omega
        have hsize : 8 + 8 * n = 8 * (n + 1) := by omega
        have hmem : clear (clear s.mem (BitVec.ofNat 64 first) 8)
            (BitVec.ofNat 64 (first + 8)) (8 * n) =
              clear s.mem (BitVec.ofNat 64 first) (8 * (n + 1)) := by
          rw [BitVec.ofNat_add, clear_clear _ _ (by omega), hsize]
        simp only [h1, Function.update_idem, hbound, hmem]
        exact hrest

/-- The state when an area has been cleared. -/
def cleared (sym : PayloadSymbols) (area : BssArea) (s : EntryCpu) : EntryCpu :=
  { s with
    x := Function.update s.x 1
      (BitVec.ofNat 64 (sym.first area + 8 * sym.words area))
    mem := clear s.mem (BitVec.ofNat 64 (sym.first area)) (8 * sym.words area) }

/-- An area is cleared, and the next block is executed. -/
theorem clear_area (h0 : s.x 0 = 0)
    (h1 : s.x 1 = BitVec.ofNat 64 (sym.first area))
    (h2 : s.x 2 = BitVec.ofNat 64 (sym.last area))
    (hrest : Completes (sym.step dcaches) (sym.cleared area s) (.clear area) t ()) :
    Completes (sym.step dcaches) s (.clear area) t () := by
  have hle := sym.first_le_last area
  have hlt := sym.last_lt area
  apply clear_loop (sym.first area) (sym.words area) h0 h1 h2 ?_ ?_ ?_ hrest
  · rw [words]
    omega
  · omega
  · intro i hi
    rw [words] at hi
    omega

/-- The loop is left when the area has been cleared. -/
theorem not_slt_cleared (h2 : s.x 2 = BitVec.ofNat 64 (sym.last area)) :
    ¬((sym.cleared area s).x 1).slt ((sym.cleared area s).x 2) = true := by
  have hle := sym.first_le_last area
  have hlt := sym.last_lt area
  have hself : (sym.cleared area s).x 1 =
      BitVec.ofNat 64 (sym.first area + 8 * sym.words area) := by
    simp only [cleared, Function.update_self]
  have hother : (sym.cleared area s).x 2 = BitVec.ofNat 64 (sym.last area) := h2
  rw [hself, hother, slt_ofNat_64 (by rw [words]; omega) (by omega), words]
  simp only [decide_eq_true_eq]
  omega

/-! ## The straight code -/

theorem exec_enterEl1Payload (sym : PayloadSymbols) (s : EntryCpu) :
    eretEl3 (exec (.movImm 0 sym.vectorTable :: enterEl1Payload) s) =
      { s with
        x := Function.update (Function.update s.x 0 sym.vectorTable) 1 5
        sys := fun r =>
          match r with
          | .scrEl3 => 0x40D
          | .hcrEl2 => 0x80000000
          | .spsrEl3 => 5
          | .elrEl3 => sym.vectorTable
          | .currentEl => 4
          | .daif => 0
          | .sctlrEl1 => 0x30C50838
          | r => s.sys r } := by
  have hlevel : (5#64 &&& 0xC) = 4 := by decide
  have hmasks : (5#64 &&& 0x3C0) = 0 := by decide
  simp only [eretEl3, exec, enterEl1Payload, List.foldl_cons, List.foldl_nil,
    Instr.exec, Processor.setX, Function.update_self, Function.update_idem]
  congr 1
  funext r
  cases r with
  | currentEl => exact hlevel
  | daif => exact hmasks
  | _ => rfl

theorem exec_clearRegisters (s : EntryCpu) :
    exec clearRegisters s = { s with x := fun _ => 0 } := by
  have hlist : ∀ (is : List (Fin 31)) (s : EntryCpu),
      exec (is.map fun i => .movImm i 0) s =
        { s with x := fun i => if i ∈ is then 0 else s.x i } := by
    intro is
    induction is with
    | nil =>
        intro s
        simp [exec]
    | cons j is ih =>
        intro s
        rw [List.map_cons, exec_cons, ih]
        simp only [Instr.exec, Processor.setX, Function.update_apply, List.mem_cons]
        congr 1
        funext i
        by_cases hi : i ∈ is <;> simp [hi]
  rw [clearRegisters, hlist]
  simp

/-- `_boot` clears the registers and goes on with the code for its level. -/
theorem step_boot (hlevel : s.sys .currentEl = 4) :
    sym.step dcaches s .boot =
      ({ s with x := Function.update (fun _ => 0) 0 4 }, .goto .initEl1) := by
  have hexec : exec (clearRegisters ++ [.mrs 0 .currentEl]) s =
      { s with x := Function.update (fun _ => 0) 0 4 } := by
    rw [exec_append, exec_clearRegisters]
    simp only [exec, List.foldl_cons, List.foldl_nil, Instr.exec, Processor.setX,
      hlevel]
  have hne : ¬(4 : BitVec 64) = 0xC := by decide
  simp only [step, hexec, Function.update_self]
  rw [if_neg hne, if_pos trivial]

/-- What `invalidate_dcaches` finds in the registers. -/
def dcachesArguments (sym : PayloadSymbols) (i : Fin 31) : BitVec 64 :=
  if i = 0 then sym.fpuStatus else if i = 2 then sym.el1Stack
  else if i = 30 then sym.invalidateReturn else 0

theorem step_initEl1 (hx : s.x = Function.update (fun _ => 0) 0 4) :
    sym.step dcaches s .initEl1 =
      ({ s with
          x := Function.update
            (Function.update (dcaches.x sym.dcachesArguments) 1 0x61025) 30
            sym.startupReturn
          sp := sym.el1Stack
          mem := clear s.mem sym.fpuStatus 8
          sys := fun r =>
            match r with
            | .vbarEl1 => sym.vectorTable
            | .cpacrEl1 => s.sys .cpacrEl1 &&& ~~~(0x3#64 <<< 20)
            | .sctlrEl1 => 0x61025
            | .csselrEl1 => dcaches.csselr.getD (s.sys .csselrEl1)
            | .ttbr0El1 => sym.l0Table
            | .mairEl1 => BitVec.ofNat 64 mairValue
            | .tcrEl1 => BitVec.ofNat 64 tcrEl1
            | .daif => s.sys .daif &&& ~~~(0x1#64 <<< 8)
            | r => s.sys r },
        .goto .startup) := by
  have hzero : wordBytes 8 (0 : BitVec 64) = List.replicate 8 0 := by decide
  have hoffset : sym.el1Stack + BitVec.ofInt 64 0 = sym.el1Stack := BitVec.add_zero _
  have hargs : Function.update (Function.update (Function.update (Function.update
      (Function.update s.x 1 sym.vectorTable) 0 sym.fpuStatus) 2 sym.el1Stack) 1 0) 30
        sym.invalidateReturn = sym.dcachesArguments := by
    funext i
    simp only [hx, dcachesArguments, Function.update_apply]
    split_ifs <;> simp_all
  simp only [step, clearFpuStatus, DcachesEffect.apply, exec, initVectors, initStack,
    initMmu, List.foldl_cons, List.foldl_nil, Instr.exec, Processor.setX,
    Processor.setBase, Processor.base, Processor.store, Function.update_self,
    Function.update_idem, hzero, write_replicate_zero, hoffset, hargs]
  congr 2
  funext r
  cases hcsselr : dcaches.csselr <;> cases r <;> rfl

theorem step_startup :
    sym.step dcaches s .startup =
      ({ s with
          x := Function.update (Function.update (Function.update s.x 0 0) 1
            (BitVec.ofNat 64 (sym.first .sbss))) 2 (BitVec.ofNat 64 (sym.last .sbss)) },
        .goto (.clear .sbss)) := rfl

theorem step_cleared_sbss (h2 : s.x 2 = BitVec.ofNat 64 (sym.last .sbss)) :
    sym.step dcaches (sym.cleared .sbss s) (.clear .sbss) =
      (exec (sym.loadBounds .bss) (sym.cleared .sbss s), .goto (.clear .bss)) :=
  if_neg (not_slt_cleared h2)

theorem step_cleared_bss (h2 : s.x 2 = BitVec.ofNat 64 (sym.last .bss)) :
    sym.step dcaches (sym.cleared .bss s) (.clear .bss) =
      (sym.cleared .bss s, .ret ()) :=
  if_neg (not_slt_cleared h2)

/-! ## The whole way -/

/-- The state in which the constructors of the payload are called. -/
def entered (sym : PayloadSymbols) (dcaches : DcachesEffect) (s : EntryCpu) : EntryCpu where
  x := fun i =>
    if i = 0 then 0
    else if i = 1 then BitVec.ofNat 64 (sym.first .bss + 8 * sym.words .bss)
    else if i = 2 then BitVec.ofNat 64 (sym.last .bss)
    else if i = 30 then sym.startupReturn
    else dcaches.x sym.dcachesArguments i
  sp := sym.el1Stack
  v := s.v
  sys := fun r =>
    match r with
    | .scrEl3 => 0x40D
    | .hcrEl2 => 0x80000000
    | .spsrEl3 => 5
    | .elrEl3 => sym.vectorTable
    | .currentEl => 4
    | .daif => 0
    | .vbarEl1 => sym.vectorTable
    | .cpacrEl1 => s.sys .cpacrEl1 &&& ~~~(0x3#64 <<< 20)
    | .sctlrEl1 => 0x61025
    | .csselrEl1 => dcaches.csselr.getD (s.sys .csselrEl1)
    | .ttbr0El1 => sym.l0Table
    | .mairEl1 => BitVec.ofNat 64 mairValue
    | .tcrEl1 => BitVec.ofNat 64 tcrEl1
    | .other n => s.sys (.other n)
  mem := clear
    (clear (clear s.mem sym.fpuStatus 8) (BitVec.ofNat 64 (sym.first .sbss))
      (8 * sym.words .sbss))
    (BitVec.ofNat 64 (sym.first .bss)) (8 * sym.words .bss)

/-- The code always gets to the constructors. -/
theorem completes_entered (sym : PayloadSymbols) (dcaches : DcachesEffect) (s : EntryCpu) :
    Completes (sym.step dcaches) s .enterEl1Payload (sym.entered dcaches s) () := by
  refine .goto (congrArg (·, _) (exec_enterEl1Payload sym s)) (.goto rfl ?_)
  refine .goto (step_boot rfl) (.goto (step_initEl1 rfl) (.goto step_startup ?_))
  refine clear_area rfl rfl rfl (.goto (step_cleared_sbss rfl) ?_)
  refine clear_area rfl rfl rfl ?_
  refine .ret ((step_cleared_bss ?_).trans ?_)
  · rfl
  · refine congrArg (·, Next.ret ()) ?_
    simp only [cleared, entered, loadBounds, exec, List.foldl_cons, List.foldl_nil,
      Instr.exec, Processor.setX]
    congr 1
    · funext i
      simp only [Function.update_apply]
      split_ifs <;> first | rfl | omega
    · funext r
      cases r <;> rfl

/-! ## What is left of an earlier payload -/

/-- The bytes that are cleared.  An area that does not begin at a word is cleared
up to seven bytes beyond its end. -/
def Clears (sym : PayloadSymbols) (a : BitVec 64) : Prop :=
  (a - sym.fpuStatus).toNat < 8 ∨
    ∃ area, (a - BitVec.ofNat 64 (sym.first area)).toNat < 8 * sym.words area

theorem mem_entered_of_clears {a : BitVec 64} (h : sym.Clears a) :
    (sym.entered dcaches s).mem a = 0 := by
  simp only [entered, clear]
  rcases h with h | ⟨area, h⟩
  · simp only [h, if_true, ite_self]
  · cases area with
    | sbss => simp only [h, if_true, ite_self]
    | bss => exact if_pos h

theorem mem_entered_of_not_clears {a : BitVec 64} (h : ¬sym.Clears a) :
    (sym.entered dcaches s).mem a = s.mem a := by
  rw [Clears, not_or, not_exists] at h
  obtain ⟨hstatus, hareas⟩ := h
  simp only [entered, clear]
  rw [if_neg (hareas .bss), if_neg (hareas .sbss), if_neg hstatus]

/-- The system registers that get a value of their own. -/
def Initialises (dcaches : DcachesEffect) : BootReg → Prop
  | .cpacrEl1 | .other _ => False
  | .csselrEl1 => dcaches.csselr.isSome = true
  | _ => True

/-- Two cores that a payload cannot tell apart: the vector registers, the memory
that is not cleared and the system registers that are not initialised are the
same; of `CPACR_EL1` the two bits that trap floating point accesses are cleared. -/
structure Inherits (sym : PayloadSymbols) (dcaches : DcachesEffect) (s t : EntryCpu) :
    Prop where
  v : s.v = t.v
  cpacr : s.sys .cpacrEl1 &&& ~~~(0x3#64 <<< 20) = t.sys .cpacrEl1 &&& ~~~(0x3#64 <<< 20)
  sys : ∀ r, r ≠ .cpacrEl1 → ¬Initialises dcaches r → s.sys r = t.sys r
  mem : ∀ a, ¬sym.Clears a → s.mem a = t.mem a

theorem sys_entered_eq_iff :
    (sym.entered dcaches s).sys = (sym.entered dcaches t).sys ↔
      s.sys .cpacrEl1 &&& ~~~(0x3#64 <<< 20) =
          t.sys .cpacrEl1 &&& ~~~(0x3#64 <<< 20) ∧
        ∀ r, r ≠ .cpacrEl1 → ¬Initialises dcaches r → s.sys r = t.sys r := by
  constructor
  · intro h
    refine ⟨congrFun h .cpacrEl1, ?_⟩
    intro r hr hinit
    have hreg := congrFun h r
    cases r with
    | cpacrEl1 => exact absurd rfl hr
    | other n => exact hreg
    | csselrEl1 =>
        have hnone : dcaches.csselr = none := by
          rw [← Option.not_isSome_iff_eq_none]
          exact hinit
        simp only [entered, hnone, Option.getD_none] at hreg
        exact hreg
    | _ => exact absurd trivial hinit
  · rintro ⟨hcpacr, hsys⟩
    funext r
    cases r with
    | cpacrEl1 => exact hcpacr
    | other n => exact hsys (.other n) (fun h => BootReg.noConfusion h) id
    | csselrEl1 =>
        simp only [entered]
        cases hcsselr : dcaches.csselr with
        | none =>
            refine hsys .csselrEl1 (fun h => BootReg.noConfusion h) ?_
            simp only [Initialises, hcsselr, Option.isSome_none, Bool.false_eq_true,
              not_false_eq_true]
        | some value => rfl
    | _ => rfl

theorem mem_entered_eq_iff :
    (sym.entered dcaches s).mem = (sym.entered dcaches t).mem ↔
      ∀ a, ¬sym.Clears a → s.mem a = t.mem a := by
  constructor
  · intro h a ha
    have hbyte := congrFun h a
    rw [mem_entered_of_not_clears ha, mem_entered_of_not_clears ha] at hbyte
    exact hbyte
  · intro h
    funext a
    by_cases ha : sym.Clears a
    · rw [mem_entered_of_clears ha, mem_entered_of_clears ha]
    · rw [mem_entered_of_not_clears ha, mem_entered_of_not_clears ha]
      exact h a ha

/-- Nothing else matters. -/
theorem entered_eq_iff :
    sym.entered dcaches s = sym.entered dcaches t ↔ sym.Inherits dcaches s t := by
  constructor
  · intro h
    obtain ⟨hcpacr, hsys⟩ := sys_entered_eq_iff.mp (congrArg Processor.sys h)
    have hv : (sym.entered dcaches s).v = (sym.entered dcaches t).v :=
      congrArg Processor.v h
    have hmem := mem_entered_eq_iff.mp (congrArg Processor.mem h)
    exact ⟨hv, hcpacr, hsys, hmem⟩
  · intro h
    have hsys : (sym.entered dcaches s).sys = (sym.entered dcaches t).sys :=
      sys_entered_eq_iff.mpr ⟨h.cpacr, h.sys⟩
    have hmem : (sym.entered dcaches s).mem = (sym.entered dcaches t).mem :=
      mem_entered_eq_iff.mpr h.mem
    have hv : (sym.entered dcaches s).v = (sym.entered dcaches t).v := h.v
    rw [entered, entered] at *
    congr 1

/-- Every core gets to the constructors of the payload, and two cores get there in
the same state if and only if they agree on what is neither cleared nor
initialised. -/
theorem payload_inherits_iff (sym : PayloadSymbols) (dcaches : DcachesEffect)
    (s s' : EntryCpu) :
    ∃ t t', Completes (sym.step dcaches) s .enterEl1Payload t () ∧
      Completes (sym.step dcaches) s' .enterEl1Payload t' () ∧
        (t = t' ↔ sym.Inherits dcaches s s') :=
  ⟨_, _, completes_entered sym dcaches s, completes_entered sym dcaches s',
    entered_eq_iff⟩

end PayloadSymbols

/-- The addresses of a payload of cpu1. -/
def cpu1Symbols : PayloadSymbols where
  vectorTable := 0x800100000
  boot := 0x800100800
  invalidateReturn := 0x800100984
  startupReturn := 0x800100A0C
  fpuStatus := 0x80010D0C0
  el1Stack := 0x801112000
  l0Table := 0x800104000
  first := fun area =>
    match area with
    | .sbss => 0x80010D080
    | .bss => 0x80010D0C0
  last := fun area =>
    match area with
    | .sbss => 0x80010D080
    | .bss => 0x80010E004
  first_le_last := fun area => by cases area <;> decide
  last_lt := fun area => by cases area <;> decide

/-- A core whose registers and memory are zero. -/
def zeroCore : EntryCpu where
  x := fun _ => 0
  sp := 0
  v := fun _ => 0
  sys := fun _ => 0
  mem := fun _ => 0

/-- What an earlier payload has left in a vector register is seen by the next
one, on the caches of the processor. -/
theorem payload_inherits_iff_vector :
    ∃ dcaches : DcachesEffect,
      (∀ s, ∃ operands, Completes cortexA53Caches.stepOnCore ([], s) .start
        (operands, dcaches.apply s) ()) ∧
      ∃ t t', Completes (cpu1Symbols.step dcaches) zeroCore .enterEl1Payload t () ∧
        Completes (cpu1Symbols.step dcaches) { zeroCore with v := fun _ => 1 }
          .enterEl1Payload t' () ∧ t ≠ t' := by
  obtain ⟨dcaches, hdcaches⟩ := cortexA53Caches.invalidateDcaches_onCore
  obtain ⟨t, t', ht, ht', hiff⟩ :=
    cpu1Symbols.payload_inherits_iff dcaches zeroCore { zeroCore with v := fun _ => 1 }
  refine ⟨dcaches, fun s => ⟨_, hdcaches s⟩, t, t', ht, ht', ?_⟩
  intro heq
  have hv := congrFun (hiff.mp heq).v 0
  exact absurd hv (by decide)

end Bmboot
