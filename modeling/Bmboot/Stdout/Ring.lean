import Bmboot.Ipc
import Bmboot.Lib.CircularBuffer
import Bmboot.Lib.StepSystem

/-!
# The standard output ring

`writeToStdout` (`smc_handlers.cpp`) fills the ring on behalf of the payload
and `Domain::getchar` (`domain.cpp`) drains it.  The first section gives the
two as functions on the shared block.  The second gives them as two programs
whose accesses to the positions and to a buffer byte are single steps, running
side by side on one block.  Undisturbed, the programs compute the functions.
-/

namespace Bmboot

open CircularBuffer StepSystem

/-! ## The shared state -/

/-- The bytes written but not yet read, oldest first. -/
def IpcBlock.unread (ipc : IpcBlock) : List UInt8 :=
  segment stdoutBufSize ipc.executorToManager.stdoutBuf
    ipc.managerToExecutor.stdoutRdpos ipc.executorToManager.stdoutWrpos

def IpcBlock.setStdoutRdpos (ipc : IpcBlock) (rd : ℕ) : IpcBlock :=
  { ipc with managerToExecutor :=
      { ipc.managerToExecutor with stdoutRdpos := rd } }

def IpcBlock.setStdoutWrpos (ipc : IpcBlock) (wr : ℕ) : IpcBlock :=
  { ipc with executorToManager :=
      { ipc.executorToManager with stdoutWrpos := wr } }

def IpcBlock.setStdoutByte (ipc : IpcBlock) (i : ℕ) (b : UInt8) : IpcBlock :=
  { ipc with executorToManager :=
      { ipc.executorToManager with
        stdoutBuf := Function.update ipc.executorToManager.stdoutBuf i b } }

/-- The text written when the write position had to be repaired. -/
def wrposResetMessage : List UInt8 :=
  "unexpected dom_stdout_wrpos, reset to 0\n".toUTF8.toList

/-! ## The functions -/

/-- The byte loop of `writeToStdout`.  A full ring ends it, and the rest is
counted as written all the same. -/
def writeLoop (ipc : IpcBlock) (wrote : ℕ) : List UInt8 → IpcBlock × ℕ
  | [] => (ipc, wrote)
  | b :: rest =>
      let wrposNew := (ipc.executorToManager.stdoutWrpos + 1) % stdoutBufSize
      if wrposNew = ipc.managerToExecutor.stdoutRdpos then
        (ipc, wrote + (rest.length + 1))
      else
        writeLoop
          ((ipc.setStdoutByte ipc.executorToManager.stdoutWrpos b).setStdoutWrpos
            wrposNew)
          (wrote + 1) rest

/-- `writeToStdout`, with a bound on the depth of its recursion.  The result
is the count converted to `int`. -/
def writeToStdout : ℕ → IpcBlock → List UInt8 → Option (IpcBlock × BitVec 32)
  | 0, _, _ => none
  | depth + 1, ipc, data => do
      let repaired ←
        if ipc.executorToManager.stdoutWrpos ≥ stdoutBufSize then
          (writeToStdout depth (ipc.setStdoutWrpos 0) wrposResetMessage).map
            Prod.fst
        else some ipc
      let (ipc', wrote) := writeLoop repaired 0 data
      some (ipc', BitVec.ofNat 32 wrote)

/-- `Domain::getchar`; no byte is the value `-1`. -/
def getchar (ipc : IpcBlock) : IpcBlock × Option UInt8 :=
  let ipc :=
    if ipc.managerToExecutor.stdoutRdpos ≥ stdoutBufSize then
      ipc.setStdoutRdpos 0
    else ipc
  let rd := ipc.managerToExecutor.stdoutRdpos
  if rd ≠ ipc.executorToManager.stdoutWrpos then
    (ipc.setStdoutRdpos ((rd + 1) % stdoutBufSize),
      some (ipc.executorToManager.stdoutBuf rd))
  else (ipc, none)

/-! ## The interleaved programs -/

/-- Where an activation of `writeToStdout` stands.  The parameters are the
local variables that live across the point. -/
inductive WritePc
  | checkPos
  | resetPos
  | loop
  | readRdpos (wrposNew : ℕ)
  | readIndex (wrposNew : ℕ)
  | storeByte (wrposNew index : ℕ)
  | storePos (wrposNew : ℕ)

/-- One activation of `writeToStdout`: its argument, what `data_bytes` and
`size` still cover, and `wrote`. -/
structure WriteCall where
  pc : WritePc
  data : List UInt8
  rest : List UInt8
  wrote : ℕ

def WriteCall.start (data : List UInt8) : WriteCall :=
  { pc := .checkPos, data := data, rest := data, wrote := 0 }

/-- Where the reader stands in `getchar`. -/
inductive GetcharPc
  | idle
  | checkPos
  | resetPos
  | readRdpos
  | readWrpos (rdpos : ℕ)
  | readIndex
  | readByte (index : ℕ)
  | readNext (c : UInt8)
  | storePos (c : UInt8) (rdpos : ℕ)

/-- A finished call of `writeToStdout`, with the number of bytes it put into
the ring, the number it reported, and, when a full ring ended it, the number
of unread bytes at the moment it read the read position. -/
structure WriteRecord where
  data : List UInt8
  accepted : List UInt8
  count : BitVec 32
  unreadAtStop : Option ℕ

/-- Writer and reader on one block.  The last three fields are history: no
step reads them. -/
structure Console where
  ipc : IpcBlock
  /-- Activations of `writeToStdout`, innermost first. -/
  writer : List WriteCall
  reader : GetcharPc
  accepted : List UInt8
  returned : List UInt8
  calls : List WriteRecord

inductive ConsoleAction
  | callWrite (data : List UInt8)
  | writer
  | callGetchar
  | reader

/-- Return from the innermost activation `f` with the value `count`. -/
def Console.finishWrite (s : Console) (f : WriteCall) (outer : List WriteCall)
    (count : ℕ) (unreadAtStop : Option ℕ) : Console :=
  { s with
    writer := outer
    calls := s.calls ++
      [{ data := f.data, accepted := f.data.take f.wrote
         count := BitVec.ofNat 32 count, unreadAtStop := unreadAtStop }] }

/-- One access of the innermost activation of `writeToStdout`. -/
def Console.writerStep (s : Console) (f : WriteCall)
    (outer : List WriteCall) : Option Console :=
  match f.pc with
  | .checkPos =>
      if s.ipc.executorToManager.stdoutWrpos ≥ stdoutBufSize then
        some { s with writer := { f with pc := .resetPos } :: outer }
      else
        some { s with writer := { f with pc := .loop } :: outer }
  | .resetPos =>
      some
        { s with
          ipc := s.ipc.setStdoutWrpos 0
          writer :=
            .start wrposResetMessage :: { f with pc := .loop } :: outer }
  | .loop =>
      match f.rest with
      | [] => some (s.finishWrite f outer f.wrote none)
      | _ :: _ =>
          some { s with writer :=
            { f with
              pc := .readRdpos
                ((s.ipc.executorToManager.stdoutWrpos + 1) % stdoutBufSize) }
              :: outer }
  | .readRdpos wrposNew =>
      if wrposNew = s.ipc.managerToExecutor.stdoutRdpos then
        some (s.finishWrite f outer (f.wrote + f.rest.length)
          (some s.ipc.unread.length))
      else
        some { s with writer := { f with pc := .readIndex wrposNew } :: outer }
  | .readIndex wrposNew =>
      some { s with writer :=
        { f with
          pc := .storeByte wrposNew s.ipc.executorToManager.stdoutWrpos }
          :: outer }
  | .storeByte wrposNew index =>
      match f.rest with
      | [] => none
      | b :: _ =>
          some
            { s with
              ipc := s.ipc.setStdoutByte index b
              writer := { f with pc := .storePos wrposNew } :: outer }
  | .storePos wrposNew =>
      match f.rest with
      | [] => none
      | b :: rest =>
          some
            { s with
              ipc := s.ipc.setStdoutWrpos wrposNew
              writer :=
                { f with pc := .loop, rest := rest, wrote := f.wrote + 1 }
                  :: outer
              accepted := s.accepted ++ [b] }

/-- One access of `getchar`. -/
def Console.readerStep (s : Console) : Option Console :=
  match s.reader with
  | .idle => none
  | .checkPos =>
      if s.ipc.managerToExecutor.stdoutRdpos ≥ stdoutBufSize then
        some { s with reader := .resetPos }
      else
        some { s with reader := .readRdpos }
  | .resetPos =>
      some { s with ipc := s.ipc.setStdoutRdpos 0, reader := .readRdpos }
  | .readRdpos =>
      some { s with reader := .readWrpos s.ipc.managerToExecutor.stdoutRdpos }
  | .readWrpos rdpos =>
      if rdpos ≠ s.ipc.executorToManager.stdoutWrpos then
        some { s with reader := .readIndex }
      else
        some { s with reader := .idle }
  | .readIndex =>
      some { s with reader := .readByte s.ipc.managerToExecutor.stdoutRdpos }
  | .readByte index =>
      some { s with reader := .readNext (s.ipc.executorToManager.stdoutBuf index) }
  | .readNext c =>
      some { s with reader := .storePos c s.ipc.managerToExecutor.stdoutRdpos }
  | .storePos c rdpos =>
      some
        { s with
          ipc := s.ipc.setStdoutRdpos ((rdpos + 1) % stdoutBufSize)
          reader := .idle
          returned := s.returned ++ [c] }

/-- Either side starts a call when it has none in progress, or performs one
access. -/
def Console.step (s : Console) : ConsoleAction → Option Console
  | .callWrite data =>
      match s.writer with
      | [] => some { s with writer := [.start data] }
      | _ :: _ => none
  | .writer =>
      match s.writer with
      | [] => none
      | f :: outer => s.writerStep f outer
  | .callGetchar =>
      match s.reader with
      | .idle => some { s with reader := .checkPos }
      | _ => none
  | .reader => s.readerStep

/-- No call in progress, no history, and both positions inside the ring. -/
structure Console.Initial (s : Console) : Prop where
  rdpos_lt : s.ipc.managerToExecutor.stdoutRdpos < stdoutBufSize
  wrpos_lt : s.ipc.executorToManager.stdoutWrpos < stdoutBufSize
  writer_idle : s.writer = []
  reader_idle : s.reader = .idle
  accepted_nil : s.accepted = []
  returned_nil : s.returned = []
  calls_nil : s.calls = []

/-! ## Undisturbed -/

/-- A number of equal actions lead from `s` to `t`. -/
def Console.Repeats (a : ConsoleAction) (s t : Console) : Prop :=
  ∃ n, run Console.step s (List.replicate n a) = some t

section Undisturbed

variable {a : ConsoleAction} {s t u : Console}

theorem Console.Repeats.refl : Console.Repeats a s s :=
  ⟨0, rfl⟩

theorem Console.Repeats.head
    (h : s.step a = some t) (hrest : Console.Repeats a t u) :
    Console.Repeats a s u := by
  obtain ⟨n, hn⟩ := hrest
  exact ⟨n + 1, run_cons_eq_some.mpr ⟨t, h, hn⟩⟩

theorem Console.Repeats.trans
    (h : Console.Repeats a s t) (h' : Console.Repeats a t u) :
    Console.Repeats a s u := by
  obtain ⟨n, hn⟩ := h
  obtain ⟨m, hm⟩ := h'
  refine ⟨n + m, ?_⟩
  rw [← List.replicate_append_replicate, run_append, hn]
  exact hm

theorem readRdpos_completes (hreader : s.reader = .readRdpos) :
    Console.Repeats .reader s
      (if s.ipc.managerToExecutor.stdoutRdpos ≠
          s.ipc.executorToManager.stdoutWrpos then
        { s with
          ipc := s.ipc.setStdoutRdpos
            ((s.ipc.managerToExecutor.stdoutRdpos + 1) % stdoutBufSize)
          reader := .idle
          returned := s.returned ++
            [s.ipc.executorToManager.stdoutBuf
              s.ipc.managerToExecutor.stdoutRdpos] }
      else { s with reader := .idle }) := by
  have hread : s.step .reader = some
      { s with reader := .readWrpos s.ipc.managerToExecutor.stdoutRdpos } := by
    simp only [Console.step, Console.readerStep, hreader]
  refine .head hread ?_
  by_cases hempty : s.ipc.managerToExecutor.stdoutRdpos =
      s.ipc.executorToManager.stdoutWrpos
  · refine .head (t := { s with reader := .idle }) ?_ ?_
    · simp only [Console.step, Console.readerStep, hempty, ne_eq,
        not_true_eq_false, if_false]
    · rw [if_neg (not_not.mpr hempty)]
      exact .refl
  · refine .head (t := { s with reader := .readIndex }) ?_ ?_
    · simp only [Console.step, Console.readerStep, ne_eq, hempty,
        not_false_eq_true, if_true]
    · rw [if_pos hempty]
      exact .head rfl (.head rfl (.head rfl (.head rfl .refl)))

/-- Undisturbed, the accesses of the reader add up to `getchar`. -/
theorem getchar_completes (hreader : s.reader = .idle) :
    ∃ t, s.step .callGetchar = some t ∧
      Console.Repeats .reader t
        { s with
          ipc := (getchar s.ipc).1
          returned := s.returned ++ (getchar s.ipc).2.toList } := by
  refine ⟨{ s with reader := .checkPos }, ?_, ?_⟩
  · simp only [Console.step, hreader]
  have htail : ∀ ipc : IpcBlock, getchar s.ipc = getchar ipc →
      ipc.managerToExecutor.stdoutRdpos < stdoutBufSize →
      Console.Repeats .reader { s with ipc := ipc, reader := .readRdpos }
        { s with
          ipc := (getchar s.ipc).1
          returned := s.returned ++ (getchar s.ipc).2.toList } := by
    intro ipc hsame hlt
    have htail := readRdpos_completes
      (s := { s with ipc := ipc, reader := .readRdpos }) rfl
    rw [hsame]
    simp only [getchar, Nat.not_le.mpr hlt, if_false]
    convert htail using 1
    split_ifs <;> simp [hreader]
  by_cases hrd : s.ipc.managerToExecutor.stdoutRdpos ≥ stdoutBufSize
  · refine .head (t := { s with reader := .resetPos }) ?_ ?_
    · simp only [Console.step, Console.readerStep, hrd, if_true]
    refine .head (t := { s with
      ipc := s.ipc.setStdoutRdpos 0, reader := .readRdpos }) rfl ?_
    refine htail _ ?_ (Nat.zero_lt_succ 1023)
    simp [getchar, hrd, IpcBlock.setStdoutRdpos]
  · refine .head (t := { s with reader := .readRdpos }) ?_ ?_
    · simp only [Console.step, Console.readerStep, hrd, if_false]
    · exact htail s.ipc rfl (Nat.not_le.mp hrd)

/-- What a finished activation of `writeToStdout` leaves behind. -/
structure Console.Wrote (s t : Console) (data : List UInt8) (ipc : IpcBlock)
    (count : BitVec 32) : Prop where
  ipc : t.ipc = ipc
  reader : t.reader = s.reader
  call : ∃ r, t.calls.getLast? = some r ∧ r.data = data ∧ r.count = count

/-- Undisturbed, the rest of an activation adds up to `writeLoop`. -/
theorem writeLoop_completes
    {f : WriteCall} {outer : List WriteCall}
    (hs : s.writer = f :: outer) (hpc : f.pc = .loop) :
    ∃ t, Console.Repeats .writer s t ∧ t.writer = outer ∧
      Console.Wrote s t f.data (writeLoop s.ipc f.wrote f.rest).1
        (BitVec.ofNat 32 (writeLoop s.ipc f.wrote f.rest).2) := by
  induction hrest : f.rest generalizing s f with
  | nil =>
      refine ⟨s.finishWrite f outer f.wrote none, .head ?_ .refl, rfl,
        rfl, rfl, _, List.getLast?_concat, rfl, rfl⟩
      simp only [Console.step, hs, Console.writerStep, hpc, hrest]
  | cons b rest ih =>
      let wrposNew := (s.ipc.executorToManager.stdoutWrpos + 1) % stdoutBufSize
      have hloop : s.step .writer = some
          { s with writer := { f with pc := .readRdpos wrposNew } :: outer } := by
        simp only [Console.step, hs, Console.writerStep, hpc, hrest]
        rfl
      by_cases hfull : wrposNew = s.ipc.managerToExecutor.stdoutRdpos
      · have hstop : (writeLoop s.ipc f.wrote (b :: rest)) =
            (s.ipc, f.wrote + f.rest.length) := by
          rw [hrest]
          exact if_pos hfull
        have hfinish : { s with writer :=
              { f with pc := .readRdpos wrposNew } :: outer }.step .writer =
            some (s.finishWrite f outer (f.wrote + f.rest.length)
              (some s.ipc.unread.length)) := by
          simp only [Console.step, Console.writerStep, hfull, if_true]
          rfl
        rw [hstop]
        exact ⟨_, .head hloop (.head hfinish .refl), rfl, rfl, rfl, _,
          List.getLast?_concat, rfl, rfl⟩
      · let f' : WriteCall := { f with rest := rest, wrote := f.wrote + 1 }
        let s' : Console :=
          { s with
            ipc := (s.ipc.setStdoutByte s.ipc.executorToManager.stdoutWrpos
              b).setStdoutWrpos wrposNew
            writer := f' :: outer
            accepted := s.accepted ++ [b] }
        have hgoOn : writeLoop s.ipc f.wrote (b :: rest) =
            writeLoop s'.ipc f'.wrote rest :=
          if_neg hfull
        have hstored : Console.Repeats .writer s s' := by
          refine .head hloop (.head (t := { s with
            writer := { f with pc := .readIndex wrposNew } :: outer }) ?_ ?_)
          · simp only [Console.step, Console.writerStep, hfull, if_false]
          refine .head rfl (.head (t := { s with
            ipc := s.ipc.setStdoutByte s.ipc.executorToManager.stdoutWrpos b
            writer := { f with pc := .storePos wrposNew } :: outer }) ?_
              (.head (t := s') ?_ .refl))
          · simp only [Console.step, Console.writerStep, hrest]
          · simp only [Console.step, Console.writerStep, hrest, s', f', hpc]
        obtain ⟨t, hrun, hwriter, hwrote⟩ := ih (s := s') (f := f') rfl hpc rfl
        rw [hgoOn]
        exact ⟨t, hstored.trans hrun, hwriter, hwrote.ipc, hwrote.reader,
          hwrote.call⟩

/-- Undisturbed, the accesses of the writer add up to `writeToStdout`. -/
theorem writeToStdout_completes
    {depth : ℕ} {data : List UInt8} {outer : List WriteCall} {ipc : IpcBlock}
    {count : BitVec 32} (hs : s.writer = .start data :: outer)
    (h : writeToStdout depth s.ipc data = some (ipc, count)) :
    ∃ t, Console.Repeats .writer s t ∧ t.writer = outer ∧
      Console.Wrote s t data ipc count := by
  induction depth generalizing s data outer ipc count with
  | zero => cases h
  | succ depth ih =>
      rw [writeToStdout] at h
      by_cases hwr : s.ipc.executorToManager.stdoutWrpos ≥ stdoutBufSize
      · rw [if_pos hwr] at h
        obtain ⟨repaired, hinner, h⟩ := Option.bind_eq_some_iff.mp h
        obtain ⟨⟨_, c⟩, hrepair, rfl⟩ := Option.map_eq_some_iff.mp hinner
        have hcheck : s.step .writer = some
            { s with writer :=
                { WriteCall.start data with pc := .resetPos } :: outer } := by
          simp only [Console.step, hs, Console.writerStep, WriteCall.start, hwr,
            if_true]
        let s' : Console :=
          { s with
            ipc := s.ipc.setStdoutWrpos 0
            writer := .start wrposResetMessage ::
              { WriteCall.start data with pc := .loop } :: outer }
        obtain ⟨u, hu, huwriter, hwrote⟩ := ih (s := s') rfl hrepair
        obtain ⟨t, ht, htwriter, hwrote'⟩ := writeLoop_completes huwriter rfl
        rw [hwrote.ipc] at hwrote'
        cases h
        exact ⟨t, (Console.Repeats.head hcheck (.head rfl hu)).trans ht,
          htwriter, hwrote'.ipc, hwrote'.reader.trans hwrote.reader,
          hwrote'.call⟩
      · rw [if_neg hwr] at h
        have hcheck : s.step .writer = some
            { s with writer :=
                { WriteCall.start data with pc := .loop } :: outer } := by
          simp only [Console.step, hs, Console.writerStep, WriteCall.start, hwr,
            if_false]
        obtain ⟨t, ht, htwriter, hwrote⟩ := writeLoop_completes
          (s := { s with writer :=
            { WriteCall.start data with pc := .loop } :: outer }) rfl rfl
        cases h
        exact ⟨t, .head hcheck ht, htwriter, hwrote.ipc, hwrote.reader,
          hwrote.call⟩

end Undisturbed

end Bmboot
