import Bmboot.Boot.TranslationTable
import Bmboot.Dump.RoundTrip
import Bmboot.Lib.CLayout
import Bmboot.Monitor.CrashInfo
import Bmboot.Stdout.Fifo

/-!
# The bytes of the inter-process communication block

`IpcBlock` (`bmboot_internal.hpp`) as the compiler lays it out in the memory
that manager and monitor share.  The record of `Bmboot.Ipc`, with one value for
each member, is what the two sides see of those bytes: a store of either side
to a member is the change of that member of the record, and nothing else.
-/

namespace Bmboot

open ByteCodec ByteMemory CLayout

/-! ## Members -/

/-- The two structures in the block. -/
inductive IpcHalf
  | managerToExecutor
  | executorToManager
  deriving DecidableEq

inductive ManagerToExecutor.Member
  | cmd
  | cmdSeq
  | cntfrq
  | payloadEntryAddress
  | payloadSize
  | payloadCrc
  | payloadArgument
  | stdoutRdpos
  deriving DecidableEq

inductive ExecutorToManager.Member
  | state
  | cmdAck
  | cmdResp
  | faultEl
  | faultPc
  | faultDesc
  | regs
  | fpregs
  | stdoutWrpos
  | stdoutBuf
  deriving DecidableEq

/-- The members of `Aarch64_Regs`. -/
inductive Aarch64Regs.Member
  | regs
  | sp
  | pc
  | pstate
  deriving DecidableEq

/-- The members of `Aarch64_FpRegs`. -/
inductive Aarch64FpRegs.Member
  | vregs
  | fpsr
  | fpcr
  deriving DecidableEq

/-! ## Types -/

def charType : CType := .scalar 1 Nat.one_pos
def uint32Type : CType := .scalar 4 (by decide)
def uint64Type : CType := .scalar 8 (by decide)
def uint128Type : CType := .scalar 16 (by decide)

def Aarch64Regs.Member.type : Aarch64Regs.Member → CType
  | .regs => uint64Type.array 31
  | .sp | .pc | .pstate => uint64Type

def Aarch64Regs.layout : Layout Aarch64Regs.Member :=
  .struct Member.type [.regs, .sp, .pc, .pstate] (by intro i; cases i <;> decide)

def Aarch64FpRegs.Member.type : Aarch64FpRegs.Member → CType
  | .vregs => uint128Type.array 32
  | .fpsr | .fpcr => uint32Type

def Aarch64FpRegs.layout : Layout Aarch64FpRegs.Member :=
  .struct Member.type [.vregs, .fpsr, .fpcr] (by intro i; cases i <;> decide)

/-- Enumerations are stored as 32 bits, addresses and sizes as 64. -/
def ManagerToExecutor.Member.type : ManagerToExecutor.Member → CType
  | .cmd | .cmdSeq | .cntfrq | .payloadCrc => uint32Type
  | .payloadEntryAddress | .payloadSize | .payloadArgument | .stdoutRdpos => uint64Type

def ManagerToExecutor.layout : Layout ManagerToExecutor.Member :=
  .struct Member.type
    [.cmd, .cmdSeq, .cntfrq, .payloadEntryAddress, .payloadSize, .payloadCrc,
      .payloadArgument, .stdoutRdpos]
    (by intro i; cases i <;> decide)

def ExecutorToManager.Member.type : ExecutorToManager.Member → CType
  | .state | .cmdAck | .cmdResp | .faultEl => uint32Type
  | .faultPc | .stdoutWrpos => uint64Type
  | .faultDesc => charType.array faultDescSize
  | .regs => Aarch64Regs.layout.type
  | .fpregs => Aarch64FpRegs.layout.type
  | .stdoutBuf => charType.array stdoutBufSize

def ExecutorToManager.layout : Layout ExecutorToManager.Member :=
  .struct Member.type
    [.state, .cmdAck, .cmdResp, .faultEl, .faultPc, .faultDesc, .regs, .fpregs,
      .stdoutWrpos, .stdoutBuf]
    (by intro i; cases i <;> decide)

namespace IpcHalf

def Member : IpcHalf → Type
  | .managerToExecutor => ManagerToExecutor.Member
  | .executorToManager => ExecutorToManager.Member

def layout : (h : IpcHalf) → Layout h.Member
  | .managerToExecutor => ManagerToExecutor.layout
  | .executorToManager => ExecutorToManager.layout

def type (h : IpcHalf) : CType := h.layout.type

end IpcHalf

namespace IpcBlock

/-- A member of either half. -/
abbrev Member := Σ h : IpcHalf, h.Member

def inMember (i : ManagerToExecutor.Member) : Member := ⟨.managerToExecutor, i⟩
def outMember (i : ExecutorToManager.Member) : Member := ⟨.executorToManager, i⟩

/-- The two halves in the block. -/
def halves : Layout IpcHalf :=
  .struct IpcHalf.type [.managerToExecutor, .executorToManager]
    (by intro i; cases i <;> decide)

def layout : Layout Member :=
  halves.nest IpcHalf.layout fun _ => le_refl _

@[simp] theorem inMember_inj {i j : ManagerToExecutor.Member} :
    inMember i = inMember j ↔ i = j := by
  constructor
  · intro h
    exact eq_of_heq (Sigma.mk.inj h).2
  · exact congrArg inMember

@[simp] theorem outMember_inj {i j : ExecutorToManager.Member} :
    outMember i = outMember j ↔ i = j := by
  constructor
  · intro h
    exact eq_of_heq (Sigma.mk.inj h).2
  · exact congrArg outMember

@[simp] theorem inMember_ne_outMember
    (i : ManagerToExecutor.Member) (j : ExecutorToManager.Member) :
    inMember i ≠ outMember j :=
  fun h => IpcHalf.noConfusion (Sigma.mk.inj h).1

@[simp] theorem outMember_ne_inMember
    (i : ExecutorToManager.Member) (j : ManagerToExecutor.Member) :
    outMember i ≠ inMember j :=
  (inMember_ne_outMember j i).symm

/-- The block fits into its memory, and the halves share no cache line. -/
theorem layout_total : layout.total = 1968 := by decide

example : halves.offset .executorToManager = 64 := by decide

theorem layout_total_le : layout.total ≤ monitorIpcSize := by decide

/-! ## The record in memory -/

def word (w : ℕ) (bytes : List UInt8) : BitVec w := BitVec.ofNat w (leNat bytes)

/-- What the bytes of the members stand for. -/
def ofBytes (bytes : Member → List UInt8) : IpcBlock where
  managerToExecutor :=
    { cmd := word 32 (bytes (inMember .cmd))
      cmdSeq := word 32 (bytes (inMember .cmdSeq))
      cntfrq := word 32 (bytes (inMember .cntfrq))
      payloadEntryAddress := word 64 (bytes (inMember .payloadEntryAddress))
      payloadSize := word 64 (bytes (inMember .payloadSize))
      payloadCrc := word 32 (bytes (inMember .payloadCrc))
      payloadArgument := word 64 (bytes (inMember .payloadArgument))
      stdoutRdpos := (word 64 (bytes (inMember .stdoutRdpos))).toNat }
  executorToManager :=
    { state := word 32 (bytes (outMember .state))
      cmdAck := word 32 (bytes (outMember .cmdAck))
      cmdResp := word 32 (bytes (outMember .cmdResp))
      faultEl := word 32 (bytes (outMember .faultEl))
      faultPc := word 64 (bytes (outMember .faultPc))
      faultDesc := bytes (outMember .faultDesc)
      regs := ((takeRegs (bytes (outMember .regs))).map Prod.fst).getD
        zero.executorToManager.regs
      fpregs := (fpRegsOfFpregset (bytes (outMember .fpregs))).getD
        zero.executorToManager.fpregs
      stdoutWrpos := (word 64 (bytes (outMember .stdoutWrpos))).toNat
      stdoutBuf := fun i => (bytes (outMember .stdoutBuf)).getD i 0 }

/-- The block at an address. -/
def ofMemory (m : Memory 64) (base : BitVec 64) : IpcBlock :=
  ofBytes (layout.bytes m base)

end IpcBlock

/-! ## Stores -/

/-- A store of one of the two sides to a member, to a byte of an array, or to a
structure of saved registers. -/
inductive IpcStore
  | cmd (value : BitVec 32)
  | cmdSeq (value : BitVec 32)
  | cntfrq (value : BitVec 32)
  | payloadEntryAddress (value : BitVec 64)
  | payloadSize (value : BitVec 64)
  | payloadCrc (value : BitVec 32)
  | payloadArgument (value : BitVec 64)
  | stdoutRdpos (value : BitVec 64)
  | state (value : BitVec 32)
  | cmdAck (value : BitVec 32)
  | cmdResp (value : BitVec 32)
  | faultEl (value : BitVec 32)
  | faultPc (value : BitVec 64)
  | faultDesc (i : Fin faultDescSize) (byte : UInt8)
  | regs (value : Aarch64Regs)
  | fpregs (value : Aarch64FpRegs) (padding : Fin 8 → UInt8)
  | stdoutWrpos (value : BitVec 64)
  | stdoutBuf (i : Fin stdoutBufSize) (byte : UInt8)

namespace IpcStore

open IpcBlock

def member : IpcStore → IpcBlock.Member
  | .cmd _ => inMember .cmd
  | .cmdSeq _ => inMember .cmdSeq
  | .cntfrq _ => inMember .cntfrq
  | .payloadEntryAddress _ => inMember .payloadEntryAddress
  | .payloadSize _ => inMember .payloadSize
  | .payloadCrc _ => inMember .payloadCrc
  | .payloadArgument _ => inMember .payloadArgument
  | .stdoutRdpos _ => inMember .stdoutRdpos
  | .state _ => outMember .state
  | .cmdAck _ => outMember .cmdAck
  | .cmdResp _ => outMember .cmdResp
  | .faultEl _ => outMember .faultEl
  | .faultPc _ => outMember .faultPc
  | .faultDesc _ _ => outMember .faultDesc
  | .regs _ => outMember .regs
  | .fpregs _ _ => outMember .fpregs
  | .stdoutWrpos _ => outMember .stdoutWrpos
  | .stdoutBuf _ _ => outMember .stdoutBuf

/-- Where in the member the store begins. -/
def index : IpcStore → ℕ
  | .faultDesc i _ => i
  | .stdoutBuf i _ => i
  | _ => 0

def data : IpcStore → List UInt8
  | .cmd value | .cmdSeq value | .cntfrq value | .payloadCrc value | .state value
  | .cmdAck value | .cmdResp value | .faultEl value => wordBytes 4 value
  | .payloadEntryAddress value | .payloadSize value | .payloadArgument value
  | .stdoutRdpos value | .faultPc value | .stdoutWrpos value => wordBytes 8 value
  | .faultDesc _ byte | .stdoutBuf _ byte => [byte]
  | .regs value => value.bytes
  | .fpregs value padding => value.bytes padding

/-- The store as the hardware sees it. -/
def onMemory (base : BitVec 64) (m : Memory 64) (st : IpcStore) : Memory 64 :=
  IpcBlock.layout.store m base st.member st.index st.data

/-- The store as the models of the two sides have it. -/
def apply (ipc : IpcBlock) : IpcStore → IpcBlock
  | .cmd value =>
      { ipc with managerToExecutor := { ipc.managerToExecutor with cmd := value } }
  | .cmdSeq value =>
      { ipc with managerToExecutor := { ipc.managerToExecutor with cmdSeq := value } }
  | .cntfrq value =>
      { ipc with managerToExecutor := { ipc.managerToExecutor with cntfrq := value } }
  | .payloadEntryAddress value =>
      { ipc with managerToExecutor :=
          { ipc.managerToExecutor with payloadEntryAddress := value } }
  | .payloadSize value =>
      { ipc with managerToExecutor :=
          { ipc.managerToExecutor with payloadSize := value } }
  | .payloadCrc value =>
      { ipc with managerToExecutor :=
          { ipc.managerToExecutor with payloadCrc := value } }
  | .payloadArgument value =>
      { ipc with managerToExecutor :=
          { ipc.managerToExecutor with payloadArgument := value } }
  | .stdoutRdpos value => ipc.setStdoutRdpos value.toNat
  | .state value => ReportStore.apply ipc (.state value)
  | .cmdAck value =>
      { ipc with executorToManager := { ipc.executorToManager with cmdAck := value } }
  | .cmdResp value =>
      { ipc with executorToManager := { ipc.executorToManager with cmdResp := value } }
  | .faultEl value => ReportStore.apply ipc (.faultEl value)
  | .faultPc value => ReportStore.apply ipc (.faultPc value)
  | .faultDesc i byte => ReportStore.apply ipc (.faultDesc i byte)
  | .regs value =>
      { ipc with executorToManager := { ipc.executorToManager with regs := value } }
  | .fpregs value _ =>
      { ipc with executorToManager := { ipc.executorToManager with fpregs := value } }
  | .stdoutWrpos value => ipc.setStdoutWrpos value.toNat
  | .stdoutBuf i byte => ipc.setStdoutByte i byte

end IpcStore

/-! ## A store is the change of one member -/

namespace IpcStore

open IpcBlock

variable {st : IpcStore} {bytes bytes' : IpcBlock.Member → List UInt8}

/-- The store lies in its member. -/
theorem fits (st : IpcStore) :
    st.index + st.data.length ≤ IpcBlock.layout.size st.member := by
  cases st with
  | regs value =>
      change 0 + value.bytes.length ≤ 272
      rw [length_regs]
  | fpregs value padding =>
      change 0 + (value.bytes padding).length ≤ 528
      rw [length_fpRegs]
      decide
  | faultDesc i byte | stdoutBuf i byte => exact i.isLt
  | _ =>
      simp only [index, data, length_wordBytes, member]
      decide

@[simp] theorem word_wordBytes_4 (x : BitVec 32) : word 32 (wordBytes 4 x) = x :=
  ofNat_leNat_wordBytes (by decide) x

@[simp] theorem word_wordBytes_8 (x : BitVec 64) : word 64 (wordBytes 8 x) = x :=
  ofNat_leNat_wordBytes (by decide) x

@[simp] theorem takeRegs_bytes (r : Aarch64Regs) :
    takeRegs r.bytes = some (r, []) := by
  have htake := takeRegs_append r []
  rwa [List.append_nil] at htake

/-- The bytes of the member after the store. -/
def update (st : IpcStore) (old : List UInt8) : List UInt8 :=
  match st with
  | .faultDesc i byte => old.set i byte
  | .stdoutBuf i byte => old.set i byte
  | _ => st.data

/-- A change of the bytes of one member is a change of one member of the
record. -/
theorem ofBytes_update
    (hsize : ∀ i, (bytes i).length = IpcBlock.layout.size i)
    (hself : bytes' st.member = st.update (bytes st.member))
    (hother : ∀ i, i ≠ st.member → bytes' i = bytes i) :
    ofBytes bytes' = st.apply (ofBytes bytes) := by
  cases st with
  | stdoutBuf i byte =>
      have hlength : (bytes (outMember .stdoutBuf)).length = stdoutBufSize :=
        hsize (outMember .stdoutBuf)
      have hbuf :
          (fun n : ℕ => ((bytes (outMember .stdoutBuf)).set i byte)[n]?.getD 0) =
            Function.update
              (fun n : ℕ => (bytes (outMember .stdoutBuf))[n]?.getD 0) i byte := by
        funext n
        by_cases hn : n = i
        · rw [hn, Function.update_self,
            List.getElem?_set_self (by rw [hlength]; exact i.isLt)]
          rfl
        · rw [Function.update_of_ne hn, List.getElem?_set_ne (Ne.symm hn)]
      simp only [member] at hself hother
      simp [ofBytes, apply, setStdoutByte, hself, hother, update, hbuf]
  | _ =>
      simp only [member] at hself hother
      simp [ofBytes, apply, ReportStore.apply, setFaultDesc, setStdoutRdpos,
        setStdoutWrpos, fpRegsOfFpregset_bytes, hself, hother, update, data]

/-! ## Stores in memory -/

variable {base : BitVec 64} {m : Memory 64}

theorem layout_total_lt : IpcBlock.layout.total < 2 ^ 64 := by
  rw [layout_total]
  decide

theorem bytes_onMemory_self :
    IpcBlock.layout.bytes (st.onMemory base m) base st.member =
      st.update (IpcBlock.layout.bytes m base st.member) := by
  have hbyte : ∀ (old : List UInt8) (i : ℕ) (byte : UInt8), i < old.length →
      old.take i ++ [byte] ++ old.drop (i + 1) = old.set i byte := by
    intro old i byte hi
    rw [List.set_eq_take_append_cons_drop, if_pos hi, List.append_assoc]
    rfl
  cases st with
  | faultDesc i byte | stdoutBuf i byte =>
      refine (Layout.bytes_store_self layout_total_lt (fits _)).trans ?_
      apply hbyte
      rw [Layout.length_bytes]
      exact i.isLt
  | regs value =>
      exact Layout.bytes_store_all layout_total_lt (length_regs value)
  | fpregs value padding =>
      exact Layout.bytes_store_all layout_total_lt (length_fpRegs value padding)
  | _ =>
      refine Layout.bytes_store_all layout_total_lt ?_
      exact length_wordBytes _ _

theorem ofMemory_onMemory :
    ofMemory (st.onMemory base m) base = st.apply (ofMemory m base) := by
  apply ofBytes_update
  · exact IpcBlock.layout.length_bytes m base
  · exact bytes_onMemory_self
  · intro i hi
    exact Layout.bytes_store_of_ne layout_total_lt (fits st) hi

/-- The side whose structure the store is to. -/
def half (st : IpcStore) : IpcHalf := st.member.1

/-- The offsets of the two structures. -/
theorem offset_member (i : IpcBlock.Member) :
    (i.1 = .managerToExecutor →
        IpcBlock.layout.offset i + IpcBlock.layout.size i ≤ 64) ∧
      (i.1 = .executorToManager → 64 ≤ IpcBlock.layout.offset i) := by
  obtain ⟨h, i⟩ := i
  cases h with
  | managerToExecutor => cases i <;> decide
  | executorToManager => cases i <;> decide

theorem onMemory_outside {a : BitVec 64}
    (h : (a - base).toNat < IpcBlock.layout.offset st.member ∨
      IpcBlock.layout.offset st.member + IpcBlock.layout.size st.member ≤
        (a - base).toNat) :
    st.onMemory base m a = m a :=
  Layout.store_outside layout_total_lt (fits st) h

end IpcStore

/-- The members that are single words are aligned, so that an access to one is a
single access. -/
theorem word_aligned (i : IpcBlock.Member) (hsize : IpcBlock.layout.size i ≤ 8) :
    IpcBlock.layout.size i ∣ IpcBlock.layout.offset i := by
  obtain ⟨h, i⟩ := i
  cases h with
  | managerToExecutor => cases i <;> decide
  | executorToManager => cases i <;> revert hsize <;> decide

/-- Whatever the two sides store, in whatever order, the bytes of the block show
the record with the same changes, member by member; no byte outside the block
changes; and each side leaves the cache lines of the other one alone. -/
theorem ipcBlock_refines_memory
    (base : BitVec 64) (m : Memory 64) (stores : List IpcStore) :
    IpcBlock.ofMemory (stores.foldl (IpcStore.onMemory base) m) base =
        stores.foldl IpcStore.apply (IpcBlock.ofMemory m base) ∧
      (∀ a : BitVec 64, 1968 ≤ (a - base).toNat →
        stores.foldl (IpcStore.onMemory base) m a = m a) ∧
      ((∀ st ∈ stores, st.half = .managerToExecutor) →
        ∀ a : BitVec 64, 64 ≤ (a - base).toNat →
          stores.foldl (IpcStore.onMemory base) m a = m a) ∧
      ((∀ st ∈ stores, st.half = .executorToManager) →
        ∀ a : BitVec 64, (a - base).toNat < 64 →
          stores.foldl (IpcStore.onMemory base) m a = m a) := by
  induction stores generalizing m with
  | nil => exact ⟨rfl, fun _ _ => rfl, fun _ _ _ => rfl, fun _ _ _ => rfl⟩
  | cons st stores ih =>
      obtain ⟨hrecord, houtside, hmanager, hexecutor⟩ := ih (st.onMemory base m)
      obtain ⟨hin, hout⟩ := IpcStore.offset_member st.member
      refine ⟨?_, ?_, ?_, ?_⟩
      · rw [List.foldl_cons, hrecord, IpcStore.ofMemory_onMemory, List.foldl_cons]
      · intro a ha
        have hwithin := IpcBlock.layout.within st.member
        rw [IpcBlock.layout_total] at hwithin
        rw [List.foldl_cons, houtside a ha]
        exact IpcStore.onMemory_outside (.inr (hwithin.trans ha))
      · intro hall a ha
        obtain ⟨hst, hrest⟩ := List.forall_mem_cons.mp hall
        rw [List.foldl_cons, hmanager hrest a ha]
        exact IpcStore.onMemory_outside (.inr ((hin hst).trans ha))
      · intro hall a ha
        obtain ⟨hst, hrest⟩ := List.forall_mem_cons.mp hall
        rw [List.foldl_cons, hexecutor hrest a ha]
        exact IpcStore.onMemory_outside (.inl (ha.trans_le (hout hst)))

/-! ## The block after `memset` -/

/-- A block of zeros is the record of zeros. -/
theorem ofMemory_memset (base : BitVec 64) (m : Memory 64) :
    IpcBlock.ofMemory
        (write m base (List.replicate IpcBlock.layout.total 0)) base =
      .zero := by
  have hbytes : IpcBlock.layout.bytes
      (write m base (List.replicate IpcBlock.layout.total 0)) base =
        fun i => List.replicate (IpcBlock.layout.size i) 0 := by
    funext i
    have hwithin := IpcBlock.layout.within i
    have htotal := IpcStore.layout_total_lt
    apply List.eq_replicate_iff.mpr
    refine ⟨Layout.length_bytes _ _ _ _, ?_⟩
    intro b hb
    obtain ⟨n, hn, rfl⟩ := List.mem_iff_getElem.mp hb
    rw [Layout.length_bytes] at hn
    simp only [Layout.bytes, getElem_read, write, add_ofNat_add,
      toNat_add_sub base (show IpcBlock.layout.offset i + n < 2 ^ 64 by omega)]
    rw [List.getD_eq_getElem _ _ (by rw [List.length_replicate]; omega)]
    exact List.getElem_replicate _
  have hregs : takeRegs (List.replicate 272 0) =
      some (IpcBlock.zero.executorToManager.regs, []) := by
    have hzero : List.replicate 272 0 =
        IpcBlock.zero.executorToManager.regs.bytes := by
      decide +kernel
    rw [hzero, IpcStore.takeRegs_bytes]
  have hfpregs : fpRegsOfFpregset (List.replicate 528 0) =
      some IpcBlock.zero.executorToManager.fpregs := by
    have hzero : List.replicate 528 0 =
        IpcBlock.zero.executorToManager.fpregs.bytes fun _ => 0 := by
      decide +kernel
    rw [hzero, fpRegsOfFpregset_bytes]
  have hbuf : ∀ n i : ℕ, (List.replicate n (0 : UInt8)).getD i 0 = 0 := by
    intro n i
    simp
  have hword : ∀ w n : ℕ, IpcBlock.word w (List.replicate n 0) = 0 := by
    intro w n
    have hzero : leNat (List.replicate n 0) = 0 := by
      induction n with
      | zero => rfl
      | succ n ih => rw [List.replicate_succ, leNat, ih]; rfl
    rw [IpcBlock.word, hzero]
    rfl
  have hsizeRegs : IpcBlock.layout.size (IpcBlock.outMember .regs) = 272 := by decide
  have hsizeFpregs : IpcBlock.layout.size (IpcBlock.outMember .fpregs) = 528 := by
    decide
  have hsizeDesc : IpcBlock.layout.size (IpcBlock.outMember .faultDesc) = 32 := by
    decide
  rw [IpcBlock.ofMemory, hbytes]
  simp only [IpcBlock.ofBytes, hword, hbuf, hsizeRegs, hsizeFpregs, hsizeDesc, hregs,
    hfpregs]
  rfl

/-! ## The standard output ring in memory -/

/-- The side that takes the step. -/
def ConsoleAction.half : ConsoleAction → IpcHalf
  | .callWrite _ | .writer => .executorToManager
  | .callGetchar | .reader => .managerToExecutor

theorem stdoutPos_toNat {n : ℕ} (h : n < stdoutBufSize) :
    (BitVec.ofNat 64 n).toNat = n := by
  have hsize : stdoutBufSize < 2 ^ 64 := by decide
  rw [BitVec.toNat_ofNat]
  exact Nat.mod_eq_of_lt (h.trans hsize)

/-- A step of either program is at most one store, to the half of its side. -/
def Console.StoresOnce (s t : Console) (h : IpcHalf) : Prop :=
  t.ipc = s.ipc ∨ ∃ st : IpcStore, st.half = h ∧ t.ipc = st.apply s.ipc

theorem storesOnce_writerStep
    {s t : Console} {f : WriteCall} {outer : List WriteCall}
    (hs : ConsoleInv s) (hf : f.Ok s.ipc) (h : s.writerStep f outer = some t) :
    s.StoresOnce t .executorToManager := by
  have hpc := hf.pc
  unfold Console.writerStep at h
  cases hcase : f.pc with
  | checkPos =>
      simp only [hcase] at h
      split at h <;> cases h <;> exact .inl rfl
  | resetPos =>
      rw [hcase] at hpc
      exact hpc.elim
  | loop | readRdpos =>
      simp only [hcase] at h
      split at h <;> cases h <;> exact .inl rfl
  | readIndex =>
      simp only [hcase, Option.some.injEq] at h
      subst h
      exact .inl rfl
  | storeByte wrposNew index =>
      rw [hcase] at hpc
      obtain ⟨-, -, hindex⟩ := hpc
      have hlt : index < stdoutBufSize := hindex ▸ hs.wrpos_lt
      simp only [hcase] at h
      split at h <;> cases h
      next b rest _ => exact .inr ⟨.stdoutBuf ⟨index, hlt⟩ b, rfl, rfl⟩
  | storePos wrposNew =>
      rw [hcase] at hpc
      have hlt : wrposNew < stdoutBufSize := by
        rw [hpc.1]
        exact CircularBuffer.next_lt hs.wrpos_lt
      simp only [hcase] at h
      split at h <;> cases h
      refine .inr ⟨.stdoutWrpos (BitVec.ofNat 64 wrposNew), rfl, ?_⟩
      rw [IpcStore.apply, stdoutPos_toNat hlt]

theorem storesOnce_readerStep
    {s t : Console} (hs : ConsoleInv s) (h : s.readerStep = some t) :
    s.StoresOnce t .managerToExecutor := by
  have hreader := hs.reader
  unfold Console.readerStep at h
  cases hcase : s.reader with
  | idle => simp [hcase] at h
  | checkPos | readWrpos =>
      simp only [hcase] at h
      split at h <;> cases h <;> exact .inl rfl
  | resetPos =>
      rw [hcase] at hreader
      exact hreader.elim
  | readRdpos | readIndex | readByte | readNext =>
      simp only [hcase, Option.some.injEq] at h
      subst h
      exact .inl rfl
  | storePos c rdpos =>
      have hlt : (rdpos + 1) % stdoutBufSize < stdoutBufSize :=
        Nat.mod_lt _ (by decide)
      simp only [hcase, Option.some.injEq] at h
      subst h
      refine .inr ⟨.stdoutRdpos (BitVec.ofNat 64 ((rdpos + 1) % stdoutBufSize)), rfl, ?_⟩
      rw [IpcStore.apply, stdoutPos_toNat hlt]

theorem storesOnce_step
    {s t : Console} {a : ConsoleAction} (hs : ConsoleInv s)
    (h : s.step a = some t) : s.StoresOnce t a.half := by
  cases a with
  | callWrite data | callGetchar =>
      simp only [Console.step] at h
      split at h <;> cases h
      exact .inl rfl
  | writer =>
      rcases hs.writer with hw | ⟨f, hw, hf⟩
      · simp [Console.step, hw] at h
      · simp only [Console.step, hw] at h
        exact storesOnce_writerStep hs hf h
  | reader => exact storesOnce_readerStep hs h

/-- The two programs of the ring run on the bytes of the block: what they do to
the record is done by stores to memory, at most one in a step, and never to the
half of the other side. -/
theorem console_runs_in_memory
    {s t : Console} {as : List ConsoleAction} (hinit : s.Initial)
    (hrun : StepSystem.run Console.step s as = some t)
    (base : BitVec 64) {m : Memory 64} (hm : IpcBlock.ofMemory m base = s.ipc) :
    ∃ stores : List IpcStore,
      IpcBlock.ofMemory (stores.foldl (IpcStore.onMemory base) m) base = t.ipc ∧
        List.Sublist (stores.map IpcStore.half) (as.map ConsoleAction.half) := by
  have hs := hinit.inv
  clear hinit
  induction as generalizing s m with
  | nil =>
      cases hrun
      exact ⟨[], hm, List.Sublist.refl _⟩
  | cons a as ih =>
      obtain ⟨u, hu, hrest⟩ := StepSystem.run_cons_eq_some.mp hrun
      have hinv := (hs.step hu).1
      rcases storesOnce_step hs hu with hsame | ⟨st, hhalf, happly⟩
      · obtain ⟨stores, hstores, hsides⟩ := ih hrest (hm.trans hsame.symm) hinv
        exact ⟨stores, hstores, hsides.cons _⟩
      · have hmemory : IpcBlock.ofMemory (st.onMemory base m) base = u.ipc := by
          rw [IpcStore.ofMemory_onMemory, hm, happly]
        obtain ⟨stores, hstores, hsides⟩ := ih hrest hmemory hinv
        refine ⟨st :: stores, hstores, ?_⟩
        rw [List.map_cons, List.map_cons, hhalf]
        exact hsides.cons_cons _

/-- The block as `memset` leaves it, and the programs on it. -/
theorem console_runs_in_memory_echo :
    ∃ t, StepSystem.run Console.step (Console.start .zero) echoSchedule = some t ∧
      ∃ stores : List IpcStore,
        IpcBlock.ofMemory
            (stores.foldl (IpcStore.onMemory (monitorIpcAddress .cpu1))
              (write (fun _ => 0xff) (monitorIpcAddress .cpu1)
                (List.replicate IpcBlock.layout.total 0)))
            (monitorIpcAddress .cpu1) = t.ipc ∧
          List.Sublist (stores.map IpcStore.half)
            (echoSchedule.map ConsoleAction.half) := by
  have htest : (StepSystem.run Console.step (Console.start .zero)
      echoSchedule).isSome = true := by
    decide
  obtain ⟨t, hrun⟩ := Option.isSome_iff_exists.mp htest
  exact ⟨t, hrun,
    console_runs_in_memory Console.start_initial hrun _ (ofMemory_memset _ _)⟩

end Bmboot
