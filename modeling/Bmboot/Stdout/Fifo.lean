import Bmboot.Stdout.Ring
import Bmboot.Lib.Channel

/-!
# The standard output ring is a lossless channel

Writer and reader, interleaved access by access, refine a bounded channel:
moving the write position is a push, moving the read position is a pop, and
every other access is invisible.  The invariant `ConsoleInv` records what
each side knows between two of its accesses although the other side may have
moved in the meantime.
-/

namespace Bmboot

open CircularBuffer

/-! ## Effect of the elementary moves on the unread bytes -/

section Moves

variable {ipc : IpcBlock}

theorem unread_setStdoutByte (b : UInt8)
    (hrd : ipc.managerToExecutor.stdoutRdpos < stdoutBufSize)
    (hwr : ipc.executorToManager.stdoutWrpos < stdoutBufSize) :
    (ipc.setStdoutByte ipc.executorToManager.stdoutWrpos b).unread =
      ipc.unread :=
  segment_update_write _ b hrd hwr

theorem unread_setStdoutWrpos
    (hrd : ipc.managerToExecutor.stdoutRdpos < stdoutBufSize)
    (hwr : ipc.executorToManager.stdoutWrpos < stdoutBufSize)
    (hfull : next stdoutBufSize ipc.executorToManager.stdoutWrpos ≠
      ipc.managerToExecutor.stdoutRdpos) :
    (ipc.setStdoutWrpos
        (next stdoutBufSize ipc.executorToManager.stdoutWrpos)).unread =
      ipc.unread ++
        [ipc.executorToManager.stdoutBuf ipc.executorToManager.stdoutWrpos] :=
  segment_next_write _ hrd hwr hfull

theorem unread_setStdoutRdpos
    (hrd : ipc.managerToExecutor.stdoutRdpos < stdoutBufSize)
    (hwr : ipc.executorToManager.stdoutWrpos < stdoutBufSize)
    (hne : ipc.managerToExecutor.stdoutRdpos ≠
      ipc.executorToManager.stdoutWrpos) :
    ipc.unread =
      ipc.executorToManager.stdoutBuf ipc.managerToExecutor.stdoutRdpos ::
        (ipc.setStdoutRdpos
          (next stdoutBufSize ipc.managerToExecutor.stdoutRdpos)).unread :=
  segment_next_read _ hrd hwr hne

/-- Room for one more byte means fewer than 1023 unread ones. -/
theorem unread_length_lt
    (hrd : ipc.managerToExecutor.stdoutRdpos < stdoutBufSize)
    (hwr : ipc.executorToManager.stdoutWrpos < stdoutBufSize)
    (hfull : next stdoutBufSize ipc.executorToManager.stdoutWrpos ≠
      ipc.managerToExecutor.stdoutRdpos) :
    ipc.unread.length < stdoutBufSize - 1 := by
  have hlt : ipc.unread.length < stdoutBufSize := by
    rw [IpcBlock.unread, length_segment]
    exact count_lt hrd
  have hne : ipc.unread.length ≠ stdoutBufSize - 1 := by
    rw [IpcBlock.unread, length_segment]
    exact fun h => hfull ((next_write_eq_read_iff hrd hwr).mpr h)
  omega

theorem unread_length_eq
    (hrd : ipc.managerToExecutor.stdoutRdpos < stdoutBufSize)
    (hwr : ipc.executorToManager.stdoutWrpos < stdoutBufSize)
    (hfull : next stdoutBufSize ipc.executorToManager.stdoutWrpos =
      ipc.managerToExecutor.stdoutRdpos) :
    ipc.unread.length = stdoutBufSize - 1 := by
  rw [IpcBlock.unread, length_segment]
  exact (next_write_eq_read_iff hrd hwr).mp hfull

end Moves

/-! ## The invariant -/

/-- What the writer knows at each point.  The room it has seen cannot be taken
away: only the writer fills the ring. -/
def WritePc.Ok (ipc : IpcBlock) (rest : List UInt8) : WritePc → Prop
  | .checkPos | .loop => True
  | .resetPos => False
  | .readRdpos wrposNew =>
      rest ≠ [] ∧
        wrposNew = next stdoutBufSize ipc.executorToManager.stdoutWrpos
  | .readIndex wrposNew =>
      rest ≠ [] ∧
        wrposNew = next stdoutBufSize ipc.executorToManager.stdoutWrpos ∧
        wrposNew ≠ ipc.managerToExecutor.stdoutRdpos
  | .storeByte wrposNew index =>
      wrposNew = next stdoutBufSize ipc.executorToManager.stdoutWrpos ∧
        wrposNew ≠ ipc.managerToExecutor.stdoutRdpos ∧
        index = ipc.executorToManager.stdoutWrpos
  | .storePos wrposNew =>
      wrposNew = next stdoutBufSize ipc.executorToManager.stdoutWrpos ∧
        wrposNew ≠ ipc.managerToExecutor.stdoutRdpos ∧
        rest.head? = some
          (ipc.executorToManager.stdoutBuf ipc.executorToManager.stdoutWrpos)

structure WriteCall.Ok (ipc : IpcBlock) (f : WriteCall) : Prop where
  rest_eq : f.rest = f.data.drop f.wrote
  wrote_le : f.wrote ≤ f.data.length
  pc : f.pc.Ok ipc f.rest

theorem WriteCall.Ok.wrote_add
    {ipc : IpcBlock} {f : WriteCall} (h : f.Ok ipc) :
    f.wrote + f.rest.length = f.data.length := by
  have hle := h.wrote_le
  rw [h.rest_eq, List.length_drop]
  omega

/-- One more byte of the data is the first one not yet written. -/
theorem WriteCall.Ok.take_succ
    {ipc : IpcBlock} {f : WriteCall} {b : UInt8} {rest : List UInt8}
    (h : f.Ok ipc) (hrest : f.rest = b :: rest) :
    f.data.take (f.wrote + 1) = f.data.take f.wrote ++ [b] ∧
      rest = f.data.drop (f.wrote + 1) := by
  have hdrop : f.data.drop f.wrote = b :: rest := h.rest_eq.symm.trans hrest
  constructor
  · rw [List.take_add_one, ← List.head?_drop, hdrop]
    rfl
  · rw [← List.drop_drop, hdrop]
    rfl

/-- What the reader knows at each point.  A byte it has seen unread stays
there until it moves the read position itself. -/
def GetcharPc.Ok (ipc : IpcBlock) : GetcharPc → Prop
  | .idle | .checkPos | .readRdpos => True
  | .resetPos => False
  | .readWrpos rdpos => rdpos = ipc.managerToExecutor.stdoutRdpos
  | .readIndex =>
      ipc.managerToExecutor.stdoutRdpos ≠ ipc.executorToManager.stdoutWrpos
  | .readByte index =>
      ipc.managerToExecutor.stdoutRdpos ≠ ipc.executorToManager.stdoutWrpos ∧
        index = ipc.managerToExecutor.stdoutRdpos
  | .readNext c =>
      ipc.managerToExecutor.stdoutRdpos ≠ ipc.executorToManager.stdoutWrpos ∧
        c = ipc.executorToManager.stdoutBuf
          ipc.managerToExecutor.stdoutRdpos
  | .storePos c rdpos =>
      ipc.managerToExecutor.stdoutRdpos ≠ ipc.executorToManager.stdoutWrpos ∧
        c = ipc.executorToManager.stdoutBuf
          ipc.managerToExecutor.stdoutRdpos ∧
        rdpos = ipc.managerToExecutor.stdoutRdpos

/-- A finished call kept a prefix of its data, gave up the rest only at a full
ring, and reported the requested size. -/
structure WriteRecord.Ok (r : WriteRecord) : Prop where
  accepted_prefix : r.accepted <+: r.data
  dropped_full :
    r.accepted ≠ r.data → r.unreadAtStop = some (stdoutBufSize - 1)
  count_eq : r.count = BitVec.ofNat 32 r.data.length

/-- The part of the data of the call in progress that is in the ring. -/
def Console.inProgress (s : Console) : List UInt8 :=
  s.writer.flatMap fun f => f.data.take f.wrote

structure ConsoleInv (s : Console) : Prop where
  rdpos_lt : s.ipc.managerToExecutor.stdoutRdpos < stdoutBufSize
  wrpos_lt : s.ipc.executorToManager.stdoutWrpos < stdoutBufSize
  writer : s.writer = [] ∨ ∃ f, s.writer = [f] ∧ f.Ok s.ipc
  reader : s.reader.Ok s.ipc
  calls : ∀ r ∈ s.calls, r.Ok
  accepted_eq :
    s.accepted = s.calls.flatMap WriteRecord.accepted ++ s.inProgress

theorem Console.Initial.inv {s : Console} (h : s.Initial) : ConsoleInv s where
  rdpos_lt := h.rdpos_lt
  wrpos_lt := h.wrpos_lt
  writer := .inl h.writer_idle
  reader := by simp [h.reader_idle, GetcharPc.Ok]
  calls := by simp [h.calls_nil]
  accepted_eq := by
    simp [h.accepted_nil, h.calls_nil, Console.inProgress, h.writer_idle]

/-- The channel behind the ring. -/
def Console.channel (s : Console) : Channel.State UInt8 where
  queue := s.ipc.unread
  accepted := s.accepted
  returned := s.returned

/-- A step of the console is invisible or one move of the channel. -/
def Refines (s t : Console) : Prop :=
  t.channel = s.channel ∨
    ∃ m, Channel.step (stdoutBufSize - 1) s.channel m = some t.channel

/-! ## The writer -/

/-- A byte stored at the write position is never one the reader holds. -/
theorem GetcharPc.Ok.setStdoutByte
    {ipc : IpcBlock} {pc : GetcharPc} (h : pc.Ok ipc) (b : UInt8) :
    pc.Ok (ipc.setStdoutByte ipc.executorToManager.stdoutWrpos b) := by
  cases pc with
  | readNext c =>
      obtain ⟨hne, hc⟩ := h
      exact ⟨hne, hc.trans (Function.update_of_ne hne _ _).symm⟩
  | storePos c rdpos =>
      obtain ⟨hne, hc, hrdpos⟩ := h
      exact ⟨hne, hc.trans (Function.update_of_ne hne _ _).symm, hrdpos⟩
  | _ => exact h

/-- Publishing a byte never makes the ring look empty to the reader. -/
theorem GetcharPc.Ok.setStdoutWrpos
    {ipc : IpcBlock} {pc : GetcharPc} {wr : ℕ} (h : pc.Ok ipc)
    (hfull : wr ≠ ipc.managerToExecutor.stdoutRdpos) :
    pc.Ok (ipc.setStdoutWrpos wr) := by
  cases pc with
  | readIndex => exact hfull.symm
  | readByte index => exact ⟨hfull.symm, h.2⟩
  | readNext c => exact ⟨hfull.symm, h.2⟩
  | storePos c rdpos => exact ⟨hfull.symm, h.2⟩
  | _ => exact h

/-- An access of the writer that moves neither a position nor a byte keeps the
invariant as soon as its new point does. -/
theorem ConsoleInv.moveWriter
    {s : Console} {f : WriteCall} {pc : WritePc}
    (hs : ConsoleInv s) (hw : s.writer = [f]) (hf : f.Ok s.ipc)
    (hpc : pc.Ok s.ipc f.rest) :
    ConsoleInv { s with writer := [{ f with pc := pc }] } where
  rdpos_lt := hs.rdpos_lt
  wrpos_lt := hs.wrpos_lt
  writer := .inr ⟨_, rfl, hf.rest_eq, hf.wrote_le, hpc⟩
  reader := hs.reader
  calls := hs.calls
  accepted_eq := by
    have h := hs.accepted_eq
    simp only [Console.inProgress, hw, List.flatMap_cons, List.flatMap_nil] at h
    simpa [Console.inProgress] using h

/-- Returning from the outermost activation files a proper record. -/
theorem ConsoleInv.finishWrite
    {s : Console} {f : WriteCall} {stop : Option ℕ}
    (hs : ConsoleInv s) (hw : s.writer = [f]) (hf : f.Ok s.ipc)
    (hstop : f.rest ≠ [] → stop = some (stdoutBufSize - 1)) :
    ConsoleInv (s.finishWrite f [] (f.wrote + f.rest.length) stop) where
  rdpos_lt := hs.rdpos_lt
  wrpos_lt := hs.wrpos_lt
  writer := .inl rfl
  reader := hs.reader
  calls := by
    intro r hr
    rcases List.mem_append.mp hr with hr | hr
    · exact hs.calls r hr
    · rw [List.mem_singleton] at hr
      subst hr
      refine ⟨List.take_prefix _ _, ?_, by rw [hf.wrote_add]⟩
      intro hdropped
      apply hstop
      intro hrest
      apply hdropped
      have h := hf.wrote_add
      rw [hrest, List.length_nil, Nat.add_zero] at h
      exact List.take_of_length_le (Nat.le_of_eq h.symm)
  accepted_eq := by
    have h := hs.accepted_eq
    simp only [Console.inProgress, hw, List.flatMap_cons, List.flatMap_nil] at h
    simpa [Console.inProgress, Console.finishWrite] using h

theorem ConsoleInv.writerStep
    {s t : Console} {f : WriteCall}
    (hs : ConsoleInv s) (hw : s.writer = [f]) (hf : f.Ok s.ipc)
    (hstep : s.writerStep f [] = some t) :
    ConsoleInv t ∧ Refines s t := by
  have hrd := hs.rdpos_lt
  have hwr := hs.wrpos_lt
  have hpc := hf.pc
  unfold Console.writerStep at hstep
  cases hfpc : f.pc with
  | checkPos =>
      simp only [hfpc, ge_iff_le, Nat.not_le.mpr hwr, if_false] at hstep
      cases hstep
      exact ⟨hs.moveWriter hw hf trivial, .inl rfl⟩
  | resetPos =>
      rw [hfpc] at hpc
      exact hpc.elim
  | loop =>
      cases hrest : f.rest with
      | nil =>
          simp only [hfpc, hrest] at hstep
          cases hstep
          have h : ConsoleInv
              (s.finishWrite f [] (f.wrote + f.rest.length) none) :=
            hs.finishWrite hw hf (by simp [hrest])
          rw [hrest, List.length_nil, Nat.add_zero] at h
          exact ⟨h, .inl rfl⟩
      | cons b rest =>
          simp only [hfpc, hrest] at hstep
          cases hstep
          refine ⟨?_, .inl rfl⟩
          have hpc' : (WritePc.readRdpos
              ((s.ipc.executorToManager.stdoutWrpos + 1) % stdoutBufSize)).Ok
                s.ipc f.rest :=
            ⟨by simp [hrest], rfl⟩
          have h := hs.moveWriter hw hf hpc'
          simpa only [hrest] using h
  | readRdpos wrposNew =>
      rw [hfpc] at hpc
      obtain ⟨hrest, hnew⟩ := hpc
      simp only [hfpc] at hstep
      split at hstep
      next hfull =>
        cases hstep
        have hlen := unread_length_eq hrd hwr (hnew ▸ hfull)
        exact ⟨hs.finishWrite hw hf fun _ => by rw [hlen], .inl rfl⟩
      next hfull =>
        cases hstep
        exact ⟨hs.moveWriter hw hf ⟨hrest, hnew, hfull⟩, .inl rfl⟩
  | readIndex wrposNew =>
      rw [hfpc] at hpc
      simp only [hfpc] at hstep
      cases hstep
      exact ⟨hs.moveWriter hw hf ⟨hpc.2.1, hpc.2.2, rfl⟩, .inl rfl⟩
  | storeByte wrposNew index =>
      rw [hfpc] at hpc
      obtain ⟨hnew, hfull, hindex⟩ := hpc
      subst hindex
      cases hrest : f.rest with
      | nil => simp [hfpc, hrest] at hstep
      | cons b rest =>
          simp only [hfpc, hrest] at hstep
          cases hstep
          refine ⟨?_, .inl ?_⟩
          · have hpc' : (WritePc.storePos wrposNew).Ok
                (s.ipc.setStdoutByte s.ipc.executorToManager.stdoutWrpos b)
                f.rest :=
              ⟨hnew, hfull, by simp [hrest, IpcBlock.setStdoutByte]⟩
            exact
              { rdpos_lt := hrd
                wrpos_lt := hwr
                writer := .inr ⟨_, rfl, by simpa [hrest] using hf.rest_eq,
                  hf.wrote_le, by simpa [hrest] using hpc'⟩
                reader := hs.reader.setStdoutByte b
                calls := hs.calls
                accepted_eq := by
                  have h := hs.accepted_eq
                  simp only [Console.inProgress, hw, List.flatMap_cons,
                    List.flatMap_nil] at h
                  simpa [Console.inProgress] using h }
          · simp only [Console.channel, unread_setStdoutByte b hrd hwr]
  | storePos wrposNew =>
      rw [hfpc] at hpc
      obtain ⟨hnew, hfull, hbyte⟩ := hpc
      cases hrest : f.rest with
      | nil => simp [hfpc, hrest] at hstep
      | cons b rest =>
          simp only [hfpc, hrest] at hstep
          cases hstep
          have hb : s.ipc.executorToManager.stdoutBuf
              s.ipc.executorToManager.stdoutWrpos = b := by
            simpa [hrest] using hbyte.symm
          have hunread := unread_setStdoutWrpos hrd hwr (hnew ▸ hfull)
          rw [← hnew, hb] at hunread
          obtain ⟨htake, hrest'⟩ := hf.take_succ hrest
          have hle : f.wrote + 1 ≤ f.data.length := by
            have h := hf.wrote_add
            rw [hrest, List.length_cons] at h
            omega
          refine ⟨?_, .inr ⟨.push b, ?_⟩⟩
          · exact
              { rdpos_lt := hrd
                wrpos_lt := by
                  rw [hnew]
                  exact next_lt hwr
                writer := .inr ⟨_, rfl, hrest', hle, trivial⟩
                reader := hs.reader.setStdoutWrpos hfull
                calls := hs.calls
                accepted_eq := by
                  have h := hs.accepted_eq
                  simp only [Console.inProgress, hw, List.flatMap_cons,
                    List.flatMap_nil] at h
                  simp [Console.inProgress, htake, h] }
          · have hroom := unread_length_lt hrd hwr (hnew ▸ hfull)
            simp [Channel.step, Console.channel, hroom, hunread]

/-! ## The reader -/

/-- An access of the reader that moves nothing shared keeps the invariant as
soon as its new point does. -/
theorem ConsoleInv.moveReader
    {s : Console} {pc : GetcharPc}
    (hs : ConsoleInv s) (hpc : pc.Ok s.ipc) :
    ConsoleInv { s with reader := pc } where
  rdpos_lt := hs.rdpos_lt
  wrpos_lt := hs.wrpos_lt
  writer := hs.writer
  reader := hpc
  calls := hs.calls
  accepted_eq := hs.accepted_eq

/-- The room the writer has seen survives a byte being read. -/
theorem WritePc.Ok.setStdoutRdpos
    {ipc : IpcBlock} {rest : List UInt8} {pc : WritePc}
    (h : pc.Ok ipc rest)
    (hrd : ipc.managerToExecutor.stdoutRdpos < stdoutBufSize)
    (hwr : ipc.executorToManager.stdoutWrpos < stdoutBufSize)
    (hne : ipc.managerToExecutor.stdoutRdpos ≠
      ipc.executorToManager.stdoutWrpos) :
    pc.Ok
      (ipc.setStdoutRdpos
        (next stdoutBufSize ipc.managerToExecutor.stdoutRdpos)) rest := by
  have hinj : next stdoutBufSize ipc.executorToManager.stdoutWrpos ≠
      next stdoutBufSize ipc.managerToExecutor.stdoutRdpos := by
    rw [next_eq hwr, next_eq hrd]
    split_ifs <;> omega
  cases pc with
  | readIndex wrposNew => exact ⟨h.1, h.2.1, h.2.1 ▸ hinj⟩
  | storeByte wrposNew index => exact ⟨h.1, h.1 ▸ hinj, h.2.2⟩
  | storePos wrposNew => exact ⟨h.1, h.1 ▸ hinj, h.2.2⟩
  | _ => exact h

theorem ConsoleInv.readerStep
    {s t : Console} (hs : ConsoleInv s) (hstep : s.readerStep = some t) :
    ConsoleInv t ∧ Refines s t := by
  have hrd := hs.rdpos_lt
  have hwr := hs.wrpos_lt
  have hpc := hs.reader
  unfold Console.readerStep at hstep
  cases hr : s.reader with
  | idle => simp [hr] at hstep
  | checkPos =>
      simp only [hr, ge_iff_le, Nat.not_le.mpr hrd, if_false] at hstep
      cases hstep
      exact ⟨hs.moveReader trivial, .inl rfl⟩
  | resetPos =>
      rw [hr] at hpc
      exact hpc.elim
  | readRdpos =>
      simp only [hr] at hstep
      cases hstep
      exact ⟨hs.moveReader rfl, .inl rfl⟩
  | readWrpos rdpos =>
      rw [hr] at hpc
      have hrdpos : rdpos = s.ipc.managerToExecutor.stdoutRdpos := hpc
      subst hrdpos
      simp only [hr] at hstep
      split at hstep
      next hne =>
        cases hstep
        exact ⟨hs.moveReader hne, .inl rfl⟩
      next =>
        cases hstep
        exact ⟨hs.moveReader trivial, .inl rfl⟩
  | readIndex =>
      rw [hr] at hpc
      simp only [hr] at hstep
      cases hstep
      exact ⟨hs.moveReader ⟨hpc, rfl⟩, .inl rfl⟩
  | readByte index =>
      rw [hr] at hpc
      simp only [hr] at hstep
      cases hstep
      exact ⟨hs.moveReader ⟨hpc.1, by rw [hpc.2]⟩, .inl rfl⟩
  | readNext c =>
      rw [hr] at hpc
      simp only [hr] at hstep
      cases hstep
      exact ⟨hs.moveReader ⟨hpc.1, hpc.2, rfl⟩, .inl rfl⟩
  | storePos c rdpos =>
      rw [hr] at hpc
      obtain ⟨hne, hc, hrdpos⟩ := hpc
      subst hrdpos
      simp only [hr] at hstep
      cases hstep
      refine ⟨?_, .inr ⟨.pop, ?_⟩⟩
      · exact
          { rdpos_lt := next_lt hrd
            wrpos_lt := hwr
            writer := hs.writer.imp id fun ⟨f, hw, hf⟩ =>
              ⟨f, hw, hf.rest_eq, hf.wrote_le,
                hf.pc.setStdoutRdpos hrd hwr hne⟩
            reader := trivial
            calls := hs.calls
            accepted_eq := hs.accepted_eq }
      · have hunread := unread_setStdoutRdpos hrd hwr hne
        rw [← hc] at hunread
        simp only [Channel.step, Console.channel, hunread]
        rfl

/-! ## Runs -/

theorem ConsoleInv.step
    {s t : Console} {a : ConsoleAction}
    (hs : ConsoleInv s) (hstep : s.step a = some t) :
    ConsoleInv t ∧ Refines s t := by
  cases a with
  | callWrite data =>
      rcases hs.writer with hw | ⟨f, hw, hf⟩
      · simp only [Console.step, hw] at hstep
        cases hstep
        refine ⟨?_, .inl rfl⟩
        exact
          { rdpos_lt := hs.rdpos_lt
            wrpos_lt := hs.wrpos_lt
            writer := .inr ⟨_, rfl, rfl, Nat.zero_le _, trivial⟩
            reader := hs.reader
            calls := hs.calls
            accepted_eq := by
              have h := hs.accepted_eq
              simp only [Console.inProgress, hw, List.flatMap_nil] at h
              simpa [Console.inProgress, WriteCall.start] using h }
      · simp [Console.step, hw] at hstep
  | writer =>
      rcases hs.writer with hw | ⟨f, hw, hf⟩
      · simp [Console.step, hw] at hstep
      · simp only [Console.step, hw] at hstep
        exact hs.writerStep hw hf hstep
  | callGetchar =>
      simp only [Console.step] at hstep
      split at hstep
      · cases hstep
        exact ⟨hs.moveReader trivial, .inl rfl⟩
      · cases hstep
  | reader => exact hs.readerStep hstep

theorem ConsoleInv.run
    {s t : Console} {as : List ConsoleAction}
    (hs : ConsoleInv s) (hrun : StepSystem.run Console.step s as = some t) :
    ConsoleInv t :=
  StepSystem.run_preserves (fun _ _ _ h ht => (h.step ht).1) hs hrun

theorem console_simulates :
    StepSystem.Simulates Console.step (Channel.step (stdoutBufSize - 1))
      Console.channel ConsoleInv :=
  fun _ _ _ hs hstep => (hs.step hstep).2

/-- The standard output ring loses, duplicates and alters no accepted byte,
whatever the interleaving: what `getchar` has returned, followed by what is
unread, is what was unread at first followed by the accepted bytes.  The
accepted bytes are a prefix of the data of each call, one call after another;
a call gives up the rest only when it finds 1023 bytes unread, and reports the
requested size in any case. -/
theorem stdout_lossless_fifo
    {s t : Console} {as : List ConsoleAction}
    (hinit : s.Initial) (hrun : StepSystem.run Console.step s as = some t) :
    t.returned ++ t.ipc.unread = s.ipc.unread ++ t.accepted ∧
      t.accepted = t.calls.flatMap WriteRecord.accepted ++ t.inProgress ∧
      ∀ r ∈ t.calls,
        r.accepted <+: r.data ∧
          (r.accepted ≠ r.data → r.unreadAtStop = some 1023) ∧
          (r.data.length < 2 ^ 31 → r.count.toInt = r.data.length) := by
  obtain ⟨ms, hms⟩ := console_simulates.run
    (fun _ _ _ h ht => (h.step ht).1) hinit.inv hrun
  have hconserves : Channel.Conserves s.ipc.unread s.channel := by
    simp [Channel.Conserves, Console.channel, hinit.returned_nil,
      hinit.accepted_nil]
  have hinv := hinit.inv.run hrun
  refine ⟨Channel.run_conserves hconserves hms, hinv.accepted_eq, ?_⟩
  intro r hr
  have hok := hinv.calls r hr
  refine ⟨hok.accepted_prefix, hok.dropped_full, ?_⟩
  intro hlen
  have htoNat : (BitVec.ofNat 32 r.data.length).toNat = r.data.length := by
    rw [BitVec.toNat_ofNat]
    exact Nat.mod_eq_of_lt (by omega)
  rw [hok.count_eq, BitVec.toInt_eq_toNat_of_lt (by omega), htoNat]

/-- A block with no call in progress. -/
def Console.start (ipc : IpcBlock) : Console :=
  { ipc := ipc, writer := [], reader := .idle
    accepted := [], returned := [], calls := [] }

theorem Console.start_initial : (Console.start .zero).Initial :=
  ⟨by decide, by decide, rfl, rfl, rfl, rfl, rfl⟩

/-- One byte is written and read back. -/
def echoSchedule : List ConsoleAction :=
  .callWrite [65] :: List.replicate 7 .writer ++
    .callGetchar :: List.replicate 7 .reader

theorem stdout_lossless_fifo_echo :
    ∃ t, StepSystem.run Console.step (Console.start .zero) echoSchedule =
        some t ∧
      t.returned = [65] ∧ t.returned ++ t.ipc.unread = [] ++ t.accepted := by
  have htest : (StepSystem.run Console.step (Console.start .zero)
      echoSchedule).any (fun t => t.returned = [65]) = true := by decide
  obtain ⟨t, hrun, hreturned⟩ := (Option.any_eq_true _ _).mp htest
  have hfifo := stdout_lossless_fifo Console.start_initial hrun
  exact ⟨t, hrun, of_decide_eq_true hreturned, hfifo.1⟩

end Bmboot
