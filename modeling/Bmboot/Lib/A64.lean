import Bmboot.Lib.ByteCodec
import Bmboot.Lib.ByteMemory
import Mathlib.Data.Int.Basic
import Mathlib.Data.Prod.Lex
import Mathlib.Logic.Function.Basic
import Mathlib.Order.Fin.Basic

/-!
# A fragment of the A64 instruction set

The loads, stores and moves with which exception vectors save and restore
registers, on a machine whose system registers are a parameter.  This module is
independent of any program.
-/

namespace A64

open ByteCodec ByteMemory

/-! ## The machine -/

/-- The state that straight-line code sees. -/
structure Processor (σ : Type) where
  x : Fin 31 → BitVec 64
  sp : BitVec 64
  v : Fin 32 → BitVec 128
  sys : σ → BitVec 64
  mem : Memory 64

/-- A register that can be a base address. -/
inductive Base
  | x (i : Fin 31)
  | sp
  deriving DecidableEq

/-- `[base, #imm]`, `[base, #imm]!` and `[base], #imm`. -/
inductive Address
  | offset (base : Base) (imm : ℤ)
  | pre (base : Base) (imm : ℤ)
  | post (base : Base) (imm : ℤ)

inductive Instr (σ : Type)
  | stp (a b : Fin 31) (address : Address)
  | ldp (a b : Fin 31) (address : Address)
  | str (a : Fin 31) (address : Address)
  | ldr (a : Fin 31) (address : Address)
  | strb (a : Fin 31) (address : Address)
  | ldrb (a : Fin 31) (address : Address)
  | stpQ (a b : Fin 32) (address : Address)
  | ldpQ (a b : Fin 32) (address : Address)
  | mov (d : Fin 31) (source : Base)
  | addImm (d source : Base) (imm : ℤ)
  | subImm (d source : Base) (imm : ℤ)
  | movImm (d : Fin 31) (imm : BitVec 64)
  | andImm (d source : Fin 31) (imm : BitVec 64)
  | orrImm (d source : Fin 31) (imm : BitVec 64)
  | bicImm (d source : Fin 31) (imm : BitVec 64)
  | mrs (d : Fin 31) (r : σ)
  | msr (r : σ) (source : Fin 31)

variable {σ : Type}

namespace Processor

def base (s : Processor σ) : Base → BitVec 64
  | .x i => s.x i
  | .sp => s.sp

def setX (s : Processor σ) (i : Fin 31) (value : BitVec 64) : Processor σ :=
  { s with x := Function.update s.x i value }

def setBase (s : Processor σ) (b : Base) (value : BitVec 64) : Processor σ :=
  match b with
  | .x i => s.setX i value
  | .sp => { s with sp := value }

/-- The address that is accessed. -/
def address (s : Processor σ) : Address → BitVec 64
  | .offset b imm | .pre b imm => s.base b + BitVec.ofInt 64 imm
  | .post b _ => s.base b

/-- The base register is written back. -/
def writeBack (s : Processor σ) : Address → Processor σ
  | .offset _ _ => s
  | .pre b imm | .post b imm =>
      s.setBase b (s.base b + BitVec.ofInt 64 imm)

def load (s : Processor σ) (a : BitVec 64) : BitVec 64 :=
  BitVec.ofNat 64 (leNat (read s.mem a 8))

def loadQ (s : Processor σ) (a : BitVec 64) : BitVec 128 :=
  BitVec.ofNat 128 (leNat (read s.mem a 16))

def store (s : Processor σ) (a : BitVec 64) (bytes : List UInt8) : Processor σ :=
  { s with mem := write s.mem a bytes }

end Processor

/-- Two registers as they lie in memory. -/
def pairBytes (f : Fin 31 → BitVec 64) (p : Fin 31 × Fin 31) : List UInt8 :=
  wordBytes 8 (f p.1) ++ wordBytes 8 (f p.2)

/-! ## Registers that are written -/

/-- The register that is written back. -/
def Address.written : Address → List Base
  | .offset _ _ => []
  | .pre b _ | .post b _ => [b]

/-- The registers that an instruction writes, of those that can be a base
address. -/
def Instr.written : Instr σ → List Base
  | .stp _ _ at' | .str _ at' | .strb _ at' | .stpQ _ _ at' | .ldpQ _ _ at' =>
      at'.written
  | .ldp a b at' => .x b :: .x a :: at'.written
  | .ldr a at' | .ldrb a at' => .x a :: at'.written
  | .mov d _ | .movImm d _ | .andImm d _ _ | .orrImm d _ _ | .bicImm d _ _
  | .mrs d _ => [.x d]
  | .addImm d _ _ | .subImm d _ _ => [d]
  | .msr _ _ => []

def Instr.writtenSys : Instr σ → List σ
  | .msr r _ => [r]
  | _ => []

namespace Processor

variable {s : Processor σ} {b : Base} {value : BitVec 64}

theorem base_setX_of_ne {i : Fin 31} (h : b ≠ .x i) :
    (s.setX i value).base b = s.base b := by
  cases b with
  | x j =>
      have hne : j ≠ i := fun heq => h (congrArg Base.x heq)
      exact Function.update_of_ne hne _ _
  | sp => rfl

theorem base_setBase_of_ne {d : Base} (h : b ≠ d) :
    (s.setBase d value).base b = s.base b := by
  cases d with
  | x i => exact base_setX_of_ne h
  | sp =>
      cases b with
      | x j => rfl
      | sp => exact absurd rfl h

theorem base_writeBack_of_not_mem {at' : Address} (h : b ∉ at'.written) :
    (s.writeBack at').base b = s.base b := by
  cases at' with
  | offset d imm => rfl
  | pre d imm => exact base_setBase_of_ne (List.ne_of_not_mem_cons h)
  | post d imm => exact base_setBase_of_ne (List.ne_of_not_mem_cons h)

theorem sys_setBase (s : Processor σ) (d : Base) (value : BitVec 64) :
    (s.setBase d value).sys = s.sys := by
  cases d <;> rfl

theorem sys_writeBack (s : Processor σ) (at' : Address) :
    (s.writeBack at').sys = s.sys := by
  cases at' with
  | offset d imm => rfl
  | pre d imm => exact sys_setBase s d _
  | post d imm => exact sys_setBase s d _

end Processor

/-! ## Loads and stores of pairs of vector registers -/

/-- `stp a, b, [xn], #0x20` for each pair. -/
def storesQ (n : Fin 31) (pairs : List (Fin 32 × Fin 32)) : List (Instr σ) :=
  pairs.map fun p => .stpQ p.1 p.2 (.post (.x n) 0x20)

/-- `ldp a, b, [xn, #-0x20]!` for each pair. -/
def loadsQ (n : Fin 31) (pairs : List (Fin 32 × Fin 32)) : List (Instr σ) :=
  pairs.map fun p => .ldpQ p.1 p.2 (.pre (.x n) (-0x20))

theorem written_of_mem_storesQ
    {n : Fin 31} {pairs : List (Fin 32 × Fin 32)} {i : Instr σ}
    (h : i ∈ storesQ n pairs) : i.written = [.x n] ∧ i.writtenSys = [] := by
  obtain ⟨p, _, rfl⟩ := List.mem_map.mp h
  exact ⟨rfl, rfl⟩

theorem written_of_mem_loadsQ
    {n : Fin 31} {pairs : List (Fin 32 × Fin 32)} {i : Instr σ}
    (h : i ∈ loadsQ n pairs) : i.written = [.x n] ∧ i.writtenSys = [] := by
  obtain ⟨p, _, rfl⟩ := List.mem_map.mp h
  exact ⟨rfl, rfl⟩

/-! ## Execution -/

variable [DecidableEq σ]

def Instr.exec (s : Processor σ) : Instr σ → Processor σ
  | .stp a b at' =>
      (s.writeBack at').store (s.address at') (pairBytes s.x (a, b))
  | .ldp a b at' =>
      let t := s.writeBack at'
      (t.setX a (s.load (s.address at'))).setX b (s.load (s.address at' + 8))
  | .str a at' => (s.writeBack at').store (s.address at') (wordBytes 8 (s.x a))
  | .ldr a at' => (s.writeBack at').setX a (s.load (s.address at'))
  | .strb a at' => (s.writeBack at').store (s.address at') (wordBytes 1 (s.x a))
  | .ldrb a at' =>
      (s.writeBack at').setX a (BitVec.ofNat 64 (s.mem (s.address at')).toNat)
  | .stpQ a b at' =>
      (s.writeBack at').store (s.address at')
        (wordBytes 16 (s.v a) ++ wordBytes 16 (s.v b))
  | .ldpQ a b at' =>
      let t := s.writeBack at'
      { t with
        v := Function.update
          (Function.update t.v a (s.loadQ (s.address at')))
          b (s.loadQ (s.address at' + 16)) }
  | .mov d source => s.setX d (s.base source)
  | .addImm d source imm => s.setBase d (s.base source + BitVec.ofInt 64 imm)
  | .subImm d source imm => s.setBase d (s.base source - BitVec.ofInt 64 imm)
  | .movImm d imm => s.setX d imm
  | .andImm d source imm => s.setX d (s.x source &&& imm)
  | .orrImm d source imm => s.setX d (s.x source ||| imm)
  | .bicImm d source imm => s.setX d (s.x source &&& ~~~imm)
  | .mrs d r => s.setX d (s.sys r)
  | .msr r source => { s with sys := Function.update s.sys r (s.x source) }

def exec (code : List (Instr σ)) (s : Processor σ) : Processor σ :=
  code.foldl Instr.exec s

theorem exec_append (code rest : List (Instr σ)) (s : Processor σ) :
    exec (code ++ rest) s = exec rest (exec code s) :=
  List.foldl_append

theorem exec_cons (i : Instr σ) (code : List (Instr σ)) (s : Processor σ) :
    exec (i :: code) s = exec code (i.exec s) := rfl

/-! ## Registers that are kept -/

theorem Instr.base_exec {s : Processor σ} {b : Base} {i : Instr σ}
    (h : b ∉ i.written) : (i.exec s).base b = s.base b := by
  cases i with
  | stp a d at' => exact Processor.base_writeBack_of_not_mem h
  | str a at' => exact Processor.base_writeBack_of_not_mem h
  | strb a at' => exact Processor.base_writeBack_of_not_mem h
  | stpQ a d at' => exact Processor.base_writeBack_of_not_mem h
  | ldpQ a d at' => exact Processor.base_writeBack_of_not_mem h
  | ldp a d at' =>
      have hrest := List.not_mem_of_not_mem_cons h
      exact (Processor.base_setX_of_ne (List.ne_of_not_mem_cons h)).trans
        ((Processor.base_setX_of_ne (List.ne_of_not_mem_cons hrest)).trans
          (Processor.base_writeBack_of_not_mem
            (List.not_mem_of_not_mem_cons hrest)))
  | ldr a at' =>
      exact (Processor.base_setX_of_ne (List.ne_of_not_mem_cons h)).trans
        (Processor.base_writeBack_of_not_mem (List.not_mem_of_not_mem_cons h))
  | ldrb a at' =>
      exact (Processor.base_setX_of_ne (List.ne_of_not_mem_cons h)).trans
        (Processor.base_writeBack_of_not_mem (List.not_mem_of_not_mem_cons h))
  | addImm d source imm =>
      exact Processor.base_setBase_of_ne (List.ne_of_not_mem_cons h)
  | subImm d source imm =>
      exact Processor.base_setBase_of_ne (List.ne_of_not_mem_cons h)
  | msr r source => cases b <;> rfl
  | mov d source => exact Processor.base_setX_of_ne (List.ne_of_not_mem_cons h)
  | movImm d imm => exact Processor.base_setX_of_ne (List.ne_of_not_mem_cons h)
  | andImm d source imm =>
      exact Processor.base_setX_of_ne (List.ne_of_not_mem_cons h)
  | orrImm d source imm =>
      exact Processor.base_setX_of_ne (List.ne_of_not_mem_cons h)
  | bicImm d source imm =>
      exact Processor.base_setX_of_ne (List.ne_of_not_mem_cons h)
  | mrs d r => exact Processor.base_setX_of_ne (List.ne_of_not_mem_cons h)

theorem Instr.sys_exec {s : Processor σ} {r : σ} {i : Instr σ}
    (h : r ∉ i.writtenSys) : (i.exec s).sys r = s.sys r := by
  cases i with
  | msr r' source =>
      exact Function.update_of_ne (List.ne_of_not_mem_cons h) _ _
  | addImm d source imm => exact congrFun (Processor.sys_setBase s d _) r
  | subImm d source imm => exact congrFun (Processor.sys_setBase s d _) r
  | stp a d at' | str a at' | strb a at' | stpQ a d at' | ldpQ a d at'
  | ldp a d at' | ldr a at' | ldrb a at' =>
      exact congrFun (Processor.sys_writeBack s at') r
  | mov | movImm | andImm | orrImm | bicImm | mrs => rfl

/-- A register that no instruction writes is the same afterwards. -/
theorem base_exec {code : List (Instr σ)} {b : Base} (s : Processor σ)
    (h : ∀ i ∈ code, b ∉ i.written) : (exec code s).base b = s.base b := by
  induction code generalizing s with
  | nil => rfl
  | cons i code ih =>
      rw [exec_cons, ih _ fun j hj => h j (List.mem_cons_of_mem i hj),
        Instr.base_exec (h i List.mem_cons_self)]

theorem sys_exec {code : List (Instr σ)} {r : σ} (s : Processor σ)
    (h : ∀ i ∈ code, r ∉ i.writtenSys) : (exec code s).sys r = s.sys r := by
  induction code generalizing s with
  | nil => rfl
  | cons i code ih =>
      rw [exec_cons, ih _ fun j hj => h j (List.mem_cons_of_mem i hj),
        Instr.sys_exec (h i List.mem_cons_self)]

/-! ## Pushing and popping pairs of registers -/

theorem add_ofInt_neg (a : BitVec 64) (n : ℕ) :
    a + BitVec.ofInt 64 (-(n : ℤ)) = a - BitVec.ofNat 64 n := by
  rw [BitVec.ofInt_neg, BitVec.ofInt_natCast, BitVec.sub_eq_add_neg]

/-- `stp a, b, [sp, #-0x10]!` for each pair. -/
def pushes (pairs : List (Fin 31 × Fin 31)) : List (Instr σ) :=
  pairs.map fun p => .stp p.1 p.2 (.pre .sp (-0x10))

/-- `ldp a, b, [sp], #0x10` for each pair. -/
def pops (pairs : List (Fin 31 × Fin 31)) : List (Instr σ) :=
  pairs.map fun p => .ldp p.1 p.2 (.post .sp 0x10)

/-- The registers in a list of pairs. -/
def named (pairs : List (Fin 31 × Fin 31)) : List (Fin 31) :=
  pairs.flatMap fun p => [p.1, p.2]

theorem length_pairBytes (f : Fin 31 → BitVec 64) (p : Fin 31 × Fin 31) :
    (pairBytes f p).length = 16 := by
  simp [pairBytes]

theorem length_flatMap_pairBytes
    (f : Fin 31 → BitVec 64) (pairs : List (Fin 31 × Fin 31)) :
    (pairs.flatMap (pairBytes f)).length = 16 * pairs.length :=
  length_flatMap_of_const (length_pairBytes f) pairs

theorem exec_push (p : Fin 31 × Fin 31) (s : Processor σ) :
    Instr.exec s (.stp p.1 p.2 (.pre .sp (-0x10))) =
      { s with
        sp := s.sp - 16#64
        mem := write s.mem (s.sp - 16#64) (pairBytes s.x p) } := by
  have hneg : BitVec.ofInt 64 (-0x10) = -16#64 := by decide
  simp only [Instr.exec, Processor.writeBack, Processor.address, Processor.base,
    Processor.setBase, Processor.store, hneg, ← BitVec.sub_eq_add_neg]

/-- The registers of the pairs in a row. -/
theorem flatMap_pairBytes
    (f : Fin 31 → BitVec 64) (pairs : List (Fin 31 × Fin 31)) :
    pairs.flatMap (pairBytes f) =
      (named pairs).flatMap fun i => wordBytes 8 (f i) := by
  simp only [named, List.flatMap_assoc, List.flatMap_cons, List.flatMap_nil,
    List.append_nil]
  rfl

/-- Pushed pairs lie below the old stack pointer, the last pair lowest. -/
theorem exec_pushes
    (pairs : List (Fin 31 × Fin 31)) (s : Processor σ)
    (h : 16 * pairs.length ≤ 2 ^ 64) :
    exec (pushes pairs) s =
      { s with
        sp := s.sp - BitVec.ofNat 64 (16 * pairs.length)
        mem := write s.mem (s.sp - BitVec.ofNat 64 (16 * pairs.length))
          (pairs.reverse.flatMap (pairBytes s.x)) } := by
  induction pairs generalizing s with
  | nil => simp [pushes, exec, write_nil]
  | cons p pairs ih =>
      rw [List.length_cons, Nat.mul_succ] at h
      have hlength : (pairs.reverse.flatMap (pairBytes s.x)).length =
          16 * pairs.length := by
        rw [length_flatMap_pairBytes, List.length_reverse]
      have hsp : s.sp - BitVec.ofNat 64 (16 * (p :: pairs).length) =
          s.sp - 16#64 - BitVec.ofNat 64 (16 * pairs.length) := by
        rw [List.length_cons, Nat.mul_succ, Nat.add_comm, sub_ofNat_sub]
      have hback : s.sp - 16#64 - BitVec.ofNat 64 (16 * pairs.length) +
          BitVec.ofNat 64 (pairs.reverse.flatMap (pairBytes s.x)).length =
            s.sp - 16#64 := by
        rw [hlength, BitVec.sub_add_cancel]
      have hfit : (pairs.reverse.flatMap (pairBytes s.x)).length +
          (pairBytes s.x p).length ≤ 2 ^ 64 := by
        rw [hlength, length_pairBytes]
        exact h
      have hpair := write_write_prepend s.mem
        (s.sp - 16#64 - BitVec.ofNat 64 (16 * pairs.length)) _ _ hfit
      rw [hback] at hpair
      rw [pushes, List.map_cons, exec_cons, exec_push, ← pushes,
        ih _ (by omega), hsp, List.reverse_cons, List.flatMap_append,
        List.flatMap_singleton, ← hpair]

/-- A pair that lies at the stack pointer is loaded. -/
theorem exec_pop
    (p : Fin 31 × Fin 31) {s : Processor σ} {f : Fin 31 → BitVec 64}
    (h : read s.mem s.sp 16 = pairBytes f p) :
    Instr.exec s (.ldp p.1 p.2 (.post .sp 0x10)) =
      { s with
        sp := s.sp + 16#64
        x := fun i => if i ∈ [p.1, p.2] then f i else s.x i } := by
  have hsplit : read s.mem s.sp 8 ++ read s.mem (s.sp + 8) 8 =
      wordBytes 8 (f p.1) ++ wordBytes 8 (f p.2) := by
    rw [← pairBytes, ← h]
    exact (read_add s.mem s.sp 8 8).symm
  have hwords := List.append_inj hsplit (by simp)
  have hfirst : s.load s.sp = f p.1 := by
    rw [Processor.load, hwords.1, ofNat_leNat_wordBytes (by decide)]
  have hsecond : s.load (s.sp + 8) = f p.2 := by
    rw [Processor.load, hwords.2, ofNat_leNat_wordBytes (by decide)]
  have hx : Function.update (Function.update s.x p.1 (f p.1)) p.2 (f p.2) =
      fun i => if i ∈ [p.1, p.2] then f i else s.x i := by
    funext i
    by_cases h2 : i = p.2
    · simp [h2]
    · rw [Function.update_of_ne h2]
      by_cases h1 : i = p.1
      · simp [h1]
      · simp [h1, h2]
  have hpos : BitVec.ofInt 64 0x10 = 16#64 := by decide
  simp only [Instr.exec, Processor.writeBack, Processor.address, Processor.base,
    Processor.setBase, Processor.setX, hfirst, hsecond, hx, hpos]

/-- Pairs that lie at the stack pointer, the first pair lowest, are loaded. -/
theorem exec_pops
    (pairs : List (Fin 31 × Fin 31)) {s : Processor σ} {f : Fin 31 → BitVec 64}
    (h : read s.mem s.sp (16 * pairs.length) = pairs.flatMap (pairBytes f)) :
    exec (pops pairs) s =
      { s with
        sp := s.sp + BitVec.ofNat 64 (16 * pairs.length)
        x := fun i => if i ∈ named pairs then f i else s.x i } := by
  induction pairs generalizing s with
  | nil => simp [pops, exec, named]
  | cons p pairs ih =>
      have hlength : 16 * (p :: pairs).length = 16 + 16 * pairs.length := by
        rw [List.length_cons]
        omega
      rw [hlength, read_add, List.flatMap_cons] at h
      obtain ⟨hp, hpairs⟩ := List.append_inj h (by
        rw [length_read, length_pairBytes])
      have hx : (fun i => if i ∈ named pairs then f i
          else if i ∈ [p.1, p.2] then f i else s.x i) =
            fun i => if i ∈ named (p :: pairs) then f i else s.x i := by
        funext i
        have hnamed : i ∈ named (p :: pairs) ↔
            i ∈ [p.1, p.2] ∨ i ∈ named pairs := by
          rw [named, List.flatMap_cons, List.mem_append, ← named]
        simp only [hnamed]
        by_cases h1 : i ∈ [p.1, p.2]
        · simp only [h1, true_or, if_true, ite_self]
        · simp only [h1, false_or, if_false]
      rw [pops, List.map_cons, exec_cons, exec_pop p hp, ← pops, ih hpairs,
        hx, hlength, add_ofNat_add]

/-! ## Storing pairs of vector registers -/

/-- Two vector registers as they lie in memory. -/
def pairBytesQ (v : Fin 32 → BitVec 128) (p : Fin 32 × Fin 32) : List UInt8 :=
  wordBytes 16 (v p.1) ++ wordBytes 16 (v p.2)

theorem length_flatMap_pairBytesQ
    (v : Fin 32 → BitVec 128) (pairs : List (Fin 32 × Fin 32)) :
    (pairs.flatMap (pairBytesQ v)).length = 32 * pairs.length :=
  length_flatMap_of_const (fun p => by simp [pairBytesQ]) pairs

/-- The pairs are stored one behind the other, and the base register is moved
behind them. -/
theorem exec_storesQ
    (n : Fin 31) (pairs : List (Fin 32 × Fin 32)) (s : Processor σ)
    (h : 32 * pairs.length ≤ 2 ^ 64) :
    exec (storesQ n pairs) s =
      { s with
        x := Function.update s.x n
          (s.x n + BitVec.ofNat 64 (32 * pairs.length))
        mem := write s.mem (s.x n) (pairs.flatMap (pairBytesQ s.v)) } := by
  induction pairs generalizing s with
  | nil => simp [storesQ, exec, write_nil]
  | cons p pairs ih =>
      rw [List.length_cons, Nat.mul_succ] at h
      have hstore : Instr.exec s (.stpQ p.1 p.2 (.post (.x n) 0x20)) =
          { s with
            x := Function.update s.x n (s.x n + 32#64)
            mem := write s.mem (s.x n) (pairBytesQ s.v p) } := rfl
      have hlength : (pairBytesQ s.v p).length = 32 := by simp [pairBytesQ]
      have hpair := write_write_append s.mem (s.x n) (pairBytesQ s.v p)
        (pairs.flatMap (pairBytesQ s.v)) (by
          rw [hlength, length_flatMap_pairBytesQ]
          omega)
      rw [hlength] at hpair
      have hbase : s.x n + BitVec.ofNat 64 (32 * (p :: pairs).length) =
          s.x n + 32#64 + BitVec.ofNat 64 (32 * pairs.length) := by
        rw [List.length_cons, Nat.mul_succ, Nat.add_comm, add_ofNat_add]
      rw [storesQ, List.map_cons, exec_cons, hstore, ← storesQ,
        ih _ (by omega), hbase, List.flatMap_cons, ← hpair]
      simp only [Function.update_self, Function.update_idem]

end A64
