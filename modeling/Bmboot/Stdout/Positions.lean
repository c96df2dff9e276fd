import Bmboot.Stdout.Fifo

/-!
# The positions of the ring, whatever they contain

Neither side trusts the position it owns: `writeToStdout` and `getchar` both
start by resetting one that is out of range.  Until both have done so, either
side may meet any value in the position of the other.
-/

namespace Bmboot

open CircularBuffer StepSystem

/-! ## Calls that have returned -/

def GetcharPc.isIdle : GetcharPc → Bool
  | .idle => true
  | _ => false

/-- A console, and whether a call of each function has returned. -/
structure Watched where
  console : Console
  writeDone : Bool
  getcharDone : Bool

def Watched.start (ipc : IpcBlock) : Watched :=
  { console := .start ipc, writeDone := false, getcharDone := false }

def Watched.step (w : Watched) (a : ConsoleAction) : Option Watched :=
  (w.console.step a).map fun t =>
    { console := t
      writeDone :=
        w.writeDone || !w.console.writer.isEmpty && t.writer.isEmpty
      getcharDone :=
        w.getcharDone || !w.console.reader.isIdle && t.reader.isIdle }

/-! ## Safety -/

def ConsoleAction.isWriter : ConsoleAction → Bool
  | .writer => true
  | _ => false

/-- A call of `writeToStdout` can always go on, and returns after a number of
its own accesses, whatever happens in between. -/
structure Console.WriteEnds (s : Console) : Prop where
  goesOn : s.writer ≠ [] → ∃ t, s.step .writer = some t
  returns : ∃ n, ∀ as t, run Console.step s as = some t →
    n ≤ as.countP ConsoleAction.isWriter →
      ∃ as', as' <+: as ∧
        ∃ u, run Console.step s as' = some u ∧ u.writer = []

/-- The block after `n` calls of `getchar`. -/
def getcharTimes : ℕ → IpcBlock → IpcBlock
  | 0, ipc => ipc
  | n + 1, ipc => getcharTimes n (getchar ipc).1

/-- Successful calls of `getchar` take one byte each off the front of the unread
ones, and there are as many of them as there are unread bytes. -/
structure IpcBlock.Drains (ipc : IpcBlock) : Prop where
  shrinks : ∀ c, (getchar ipc).2 = some c →
    ipc.unread = c :: (getchar ipc).1.unread
  unread_le : ipc.unread.length ≤ stdoutBufSize - 1
  ends : ∀ n, (getchar (getcharTimes n ipc)).2 = none ↔
    ipc.unread.length ≤ n

/-- Accesses to the buffer stay inside it, the recursion is one deep at most,
every call of `writeToStdout` ends, and the position of a side lies in the ring
from its first return on. -/
structure Watched.Safe (w : Watched) : Prop where
  stores : ∀ f ∈ w.console.writer, ∀ wrposNew index,
    f.pc = .storeByte wrposNew index → index < stdoutBufSize
  reads : ∀ index, w.console.reader = .readByte index → index < stdoutBufSize
  depth : w.console.writer.length ≤ 2
  writeEnds : w.console.WriteEnds
  wrpos_lt : w.writeDone = true →
    w.console.ipc.executorToManager.stdoutWrpos < stdoutBufSize
  rdpos_lt : w.getcharDone = true →
    w.console.ipc.managerToExecutor.stdoutRdpos < stdoutBufSize
  drains : w.writeDone = true → w.getcharDone = true → w.console.ipc.Drains

/-! ## The invariant -/

/-- Behind its check, an activation has a write position inside the ring. -/
def WritePc.InRing (wr : ℕ) (rest : List UInt8) : WritePc → Prop
  | .checkPos | .resetPos => True
  | .loop => wr < stdoutBufSize
  | .readRdpos wrposNew | .readIndex wrposNew | .storePos wrposNew =>
      wr < stdoutBufSize ∧ wrposNew < stdoutBufSize ∧ rest ≠ []
  | .storeByte wrposNew index =>
      wr < stdoutBufSize ∧ wrposNew < stdoutBufSize ∧ rest ≠ [] ∧
        index < stdoutBufSize

/-- The inner activation has been called behind the check of the outer one. -/
def StackInRing (wr : ℕ) : List WriteCall → Prop
  | [] => True
  | f :: outer =>
      f.pc.InRing wr f.rest ∧
        (outer = [] ∨ wr < stdoutBufSize ∧ f.pc ≠ .resetPos ∧
          ∃ g, outer = [g] ∧ g.pc = .loop)

def GetcharPc.InRing (rd : ℕ) : GetcharPc → Prop
  | .idle | .checkPos | .resetPos => True
  | .readByte index => rd < stdoutBufSize ∧ index < stdoutBufSize
  | .readRdpos | .readWrpos _ | .readIndex | .readNext _ | .storePos _ _ =>
      rd < stdoutBufSize

structure Console.InRing (s : Console) : Prop where
  writer : StackInRing s.ipc.executorToManager.stdoutWrpos s.writer
  reader : s.reader.InRing s.ipc.managerToExecutor.stdoutRdpos

/-- A bound on the accesses of an activation, apart from five for each byte. -/
def WritePc.work (wr : ℕ) : WritePc → ℕ
  | .checkPos =>
      if wr ≥ stdoutBufSize then 5 * wrposResetMessage.length + 13 else 6
  | .resetPos => 5 * wrposResetMessage.length + 12
  | .loop => 5
  | .readRdpos _ => 4
  | .readIndex _ => 3
  | .storeByte _ _ => 2
  | .storePos _ => 1

def WriteCall.work (wr : ℕ) (f : WriteCall) : ℕ :=
  5 * f.rest.length + f.pc.work wr

def Console.work (s : Console) : ℕ :=
  (s.writer.map (WriteCall.work s.ipc.executorToManager.stdoutWrpos)).sum

/-! ## One access -/

/-- What an access of the writer does to the positions. -/
structure Console.WriterMoves (s t : Console) : Prop where
  rdpos : t.ipc.managerToExecutor.stdoutRdpos =
    s.ipc.managerToExecutor.stdoutRdpos
  reader : t.reader = s.reader
  stack : StackInRing t.ipc.executorToManager.stdoutWrpos t.writer
  keeps : s.ipc.executorToManager.stdoutWrpos < stdoutBufSize →
    t.ipc.executorToManager.stdoutWrpos < stdoutBufSize
  returns : t.writer = [] →
    t.ipc.executorToManager.stdoutWrpos < stdoutBufSize
  work : t.work < s.work

theorem WritePc.work_pos (wr : ℕ) (pc : WritePc) : 0 < pc.work wr := by
  cases pc with
  | checkPos =>
      rw [WritePc.work]
      split
      · omega
      · omega
  | _ => exact Nat.succ_pos _

section Writer

variable {s t : Console} {f : WriteCall} {outer : List WriteCall}

/-- The write position stays, and the activation goes to another point. -/
theorem writerMoves_goto {pc : WritePc}
    (hw : s.writer = f :: outer)
    (hstack : StackInRing s.ipc.executorToManager.stdoutWrpos (f :: outer))
    (hpc : pc.InRing s.ipc.executorToManager.stdoutWrpos f.rest)
    (hreset : pc = .resetPos →
      ¬s.ipc.executorToManager.stdoutWrpos < stdoutBufSize)
    (hwork : pc.work s.ipc.executorToManager.stdoutWrpos <
      f.pc.work s.ipc.executorToManager.stdoutWrpos) :
    s.WriterMoves { s with writer := { f with pc := pc } :: outer } where
  rdpos := rfl
  reader := rfl
  stack := by
    refine ⟨hpc, hstack.2.imp_right ?_⟩
    rintro ⟨hwr, -, hg⟩
    exact ⟨hwr, fun h => hreset h hwr, hg⟩
  keeps h := h
  returns h := by cases h
  work := by
    simp only [Console.work, hw, List.map_cons, List.sum_cons, WriteCall.work]
    omega

/-- The innermost activation returns. -/
theorem writerMoves_finish {count : ℕ} {stop : Option ℕ}
    (hw : s.writer = f :: outer)
    (hstack : StackInRing s.ipc.executorToManager.stdoutWrpos (f :: outer))
    (hwr : s.ipc.executorToManager.stdoutWrpos < stdoutBufSize) :
    s.WriterMoves (s.finishWrite f outer count stop) where
  rdpos := rfl
  reader := rfl
  stack := by
    rcases hstack.2 with rfl | ⟨-, -, g, rfl, hg⟩
    · trivial
    · refine ⟨?_, .inl rfl⟩
      rw [hg]
      exact hwr
  keeps h := h
  returns _ := hwr
  work := by
    have hpos := f.pc.work_pos s.ipc.executorToManager.stdoutWrpos
    simp only [Console.work, hw, List.map_cons, List.sum_cons,
      Console.finishWrite, WriteCall.work]
    omega

/-- The position is reset, and the message about it is to be written. -/
theorem writerMoves_resetPos
    (hw : s.writer = f :: outer)
    (hstack : StackInRing s.ipc.executorToManager.stdoutWrpos (f :: outer))
    (hfpc : f.pc = .resetPos) :
    s.WriterMoves
      { s with
        ipc := s.ipc.setStdoutWrpos 0
        writer := .start wrposResetMessage :: { f with pc := .loop } :: outer }
      where
  rdpos := rfl
  reader := rfl
  stack := by
    have hzero : 0 < stdoutBufSize := by decide
    rcases hstack.2 with rfl | ⟨-, hne, -⟩
    · exact ⟨trivial, .inr ⟨hzero, nofun, _, rfl, rfl⟩⟩
    · exact absurd hfpc hne
  keeps _ := Nat.zero_lt_succ 1023
  returns h := by cases h
  work := by
    -- the message takes its bytes, its check and its end
    obtain rfl : outer = [] := by
      rcases hstack.2 with houter | ⟨-, hne, -⟩
      · exact houter
      · exact absurd hfpc hne
    have hmessage : WriteCall.work 0 (.start wrposResetMessage) =
        5 * wrposResetMessage.length + 6 := rfl
    have hreset : f.work s.ipc.executorToManager.stdoutWrpos =
        5 * f.rest.length + (5 * wrposResetMessage.length + 12) := by
      rw [WriteCall.work, hfpc]
      rfl
    have hloop : WriteCall.work 0 { f with pc := .loop } =
        5 * f.rest.length + 5 := rfl
    simp only [Console.work, hw, List.map_cons, List.map_nil, List.sum_cons,
      List.sum_nil, IpcBlock.setStdoutWrpos, hmessage, hreset, hloop]
    omega

/-- The position moves behind a byte that has been stored. -/
theorem writerMoves_storePos {wrposNew : ℕ} {b : UInt8} {rest : List UInt8}
    (hw : s.writer = f :: outer)
    (hstack : StackInRing s.ipc.executorToManager.stdoutWrpos (f :: outer))
    (hfpc : f.pc = .storePos wrposNew) (hrest : f.rest = b :: rest) :
    s.WriterMoves
      { s with
        ipc := s.ipc.setStdoutWrpos wrposNew
        writer :=
          { f with pc := .loop, wrote := f.wrote + 1, rest := rest } :: outer
        accepted := s.accepted ++ [b] } where
  rdpos := rfl
  reader := rfl
  stack := by
    have hpc := hstack.1
    rw [hfpc] at hpc
    exact ⟨hpc.2.1, hstack.2.imp_right fun ⟨_, _, hg⟩ => ⟨hpc.2.1, nofun, hg⟩⟩
  keeps _ := by
    have hpc := hstack.1
    rw [hfpc] at hpc
    exact hpc.2.1
  returns h := by cases h
  work := by
    -- an outer activation is at its loop, and has the same work as before
    have houter : ∀ g ∈ outer, WriteCall.work wrposNew g =
        WriteCall.work s.ipc.executorToManager.stdoutWrpos g := by
      intro g hg
      rcases hstack.2 with rfl | ⟨-, -, g', rfl, hloop⟩
      · cases hg
      · obtain rfl := List.mem_singleton.mp hg
        rw [WriteCall.work, WriteCall.work, hloop]
        rfl
    simp only [Console.work, hw, List.map_cons, List.sum_cons,
      IpcBlock.setStdoutWrpos, List.map_congr_left houter, WriteCall.work,
      WritePc.work, hrest, hfpc, List.length_cons]
    omega

theorem writerMoves_writerStep
    (hw : s.writer = f :: outer)
    (hstack : StackInRing s.ipc.executorToManager.stdoutWrpos (f :: outer))
    (hstep : s.writerStep f outer = some t) : s.WriterMoves t := by
  have hpc := hstack.1
  unfold Console.writerStep at hstep
  cases hfpc : f.pc with
  | checkPos =>
      simp only [hfpc] at hstep
      split at hstep
      next hwr =>
        cases hstep
        refine writerMoves_goto hw hstack trivial (fun _ => Nat.not_lt.mpr hwr) ?_
        rw [hfpc, WritePc.work, WritePc.work, if_pos hwr]
        omega
      next hwr =>
        cases hstep
        refine writerMoves_goto hw hstack (Nat.not_le.mp hwr) nofun ?_
        rw [hfpc, WritePc.work, WritePc.work, if_neg hwr]
        omega
  | resetPos =>
      simp only [hfpc] at hstep
      cases hstep
      exact writerMoves_resetPos hw hstack hfpc
  | loop =>
      rw [hfpc] at hpc
      cases hrest : f.rest with
      | nil =>
          simp only [hfpc, hrest] at hstep
          cases hstep
          exact writerMoves_finish hw hstack hpc
      | cons b rest =>
          simp only [hfpc, hrest] at hstep
          cases hstep
          have hpc' : (WritePc.readRdpos
              ((s.ipc.executorToManager.stdoutWrpos + 1) % stdoutBufSize)).InRing
                s.ipc.executorToManager.stdoutWrpos f.rest :=
            ⟨hpc, Nat.mod_lt _ (by decide), by simp [hrest]⟩
          have hwork : ∀ wr wrposNew,
              (WritePc.readRdpos wrposNew).work wr < f.pc.work wr := by
            rw [hfpc]
            exact fun _ _ => Nat.lt_succ_self _
          have h := writerMoves_goto hw hstack hpc' nofun (hwork _ _)
          rwa [hrest] at h
  | readRdpos wrposNew =>
      rw [hfpc] at hpc
      simp only [hfpc] at hstep
      split at hstep
      · cases hstep
        exact writerMoves_finish hw hstack hpc.1
      · cases hstep
        refine writerMoves_goto hw hstack hpc nofun ?_
        rw [hfpc]
        exact Nat.lt_succ_self _
  | readIndex wrposNew =>
      rw [hfpc] at hpc
      simp only [hfpc] at hstep
      cases hstep
      refine writerMoves_goto hw hstack ⟨hpc.1, hpc.2.1, hpc.2.2, hpc.1⟩ nofun ?_
      rw [hfpc]
      exact Nat.lt_succ_self _
  | storeByte wrposNew index =>
      rw [hfpc] at hpc
      obtain ⟨hwr, hnew, hne, -⟩ := hpc
      obtain ⟨b, rest, hrest⟩ := List.exists_cons_of_ne_nil hne
      simp only [hfpc, hrest] at hstep
      cases hstep
      have hpc' : (WritePc.storePos wrposNew).InRing
          s.ipc.executorToManager.stdoutWrpos f.rest := ⟨hwr, hnew, hne⟩
      have hwork : ∀ wr, (WritePc.storePos wrposNew).work wr < f.pc.work wr := by
        rw [hfpc]
        exact fun _ => Nat.lt_succ_self _
      have h := writerMoves_goto hw hstack hpc' nofun (hwork _)
      rw [hrest] at h
      exact ⟨h.rdpos, h.reader, h.stack, h.keeps, h.returns, h.work⟩
  | storePos wrposNew =>
      rw [hfpc] at hpc
      obtain ⟨b, rest, hrest⟩ := List.exists_cons_of_ne_nil hpc.2.2
      simp only [hfpc, hrest] at hstep
      cases hstep
      exact writerMoves_storePos hw hstack hfpc hrest

/-- The innermost activation can go on. -/
theorem exists_writerStep
    (hstack : StackInRing s.ipc.executorToManager.stdoutWrpos (f :: outer)) :
    ∃ t, s.writerStep f outer = some t := by
  have hpc := hstack.1
  rw [Console.writerStep]
  cases hfpc : f.pc with
  | checkPos =>
      by_cases hwr : s.ipc.executorToManager.stdoutWrpos ≥ stdoutBufSize
      · exact ⟨_, if_pos hwr⟩
      · exact ⟨_, if_neg hwr⟩
  | resetPos => exact ⟨_, rfl⟩
  | loop =>
      cases f.rest with
      | nil => exact ⟨_, rfl⟩
      | cons b rest => exact ⟨_, rfl⟩
  | readRdpos wrposNew =>
      by_cases hfull : wrposNew = s.ipc.managerToExecutor.stdoutRdpos
      · exact ⟨_, if_pos hfull⟩
      · exact ⟨_, if_neg hfull⟩
  | readIndex wrposNew => exact ⟨_, rfl⟩
  | storeByte wrposNew index =>
      rw [hfpc] at hpc
      obtain ⟨b, rest, hrest⟩ := List.exists_cons_of_ne_nil hpc.2.2.1
      simp only [hrest]
      exact ⟨_, rfl⟩
  | storePos wrposNew =>
      rw [hfpc] at hpc
      obtain ⟨b, rest, hrest⟩ := List.exists_cons_of_ne_nil hpc.2.2
      simp only [hrest]
      exact ⟨_, rfl⟩

end Writer

/-- What an access of the reader does to the positions. -/
structure Console.ReaderMoves (s t : Console) : Prop where
  wrpos : t.ipc.executorToManager.stdoutWrpos =
    s.ipc.executorToManager.stdoutWrpos
  writer : t.writer = s.writer
  reader : t.reader.InRing t.ipc.managerToExecutor.stdoutRdpos
  keeps : s.ipc.managerToExecutor.stdoutRdpos < stdoutBufSize →
    t.ipc.managerToExecutor.stdoutRdpos < stdoutBufSize
  returns : t.reader.isIdle = true →
    t.ipc.managerToExecutor.stdoutRdpos < stdoutBufSize

/-- The read position stays, and the reader goes to another point. -/
theorem readerMoves_goto {s : Console} {pc : GetcharPc}
    (hpc : pc.InRing s.ipc.managerToExecutor.stdoutRdpos)
    (hidle : pc.isIdle = true →
      s.ipc.managerToExecutor.stdoutRdpos < stdoutBufSize) :
    s.ReaderMoves { s with reader := pc } where
  wrpos := rfl
  writer := rfl
  reader := hpc
  keeps h := h
  returns := hidle

theorem readerMoves_readerStep {s t : Console}
    (hreader : s.reader.InRing s.ipc.managerToExecutor.stdoutRdpos)
    (hstep : s.readerStep = some t) : s.ReaderMoves t := by
  unfold Console.readerStep at hstep
  cases hr : s.reader with
  | idle => simp [hr] at hstep
  | checkPos =>
      simp only [hr] at hstep
      split at hstep
      · cases hstep
        exact readerMoves_goto trivial nofun
      next hrd =>
        cases hstep
        exact readerMoves_goto (Nat.not_le.mp hrd) nofun
  | resetPos =>
      simp only [hr] at hstep
      cases hstep
      have hzero : 0 < stdoutBufSize := by decide
      exact ⟨rfl, rfl, hzero, fun _ => hzero, nofun⟩
  | readRdpos =>
      rw [hr] at hreader
      simp only [hr] at hstep
      cases hstep
      exact readerMoves_goto hreader nofun
  | readWrpos rdpos =>
      rw [hr] at hreader
      simp only [hr] at hstep
      split at hstep
      · cases hstep
        exact readerMoves_goto hreader nofun
      · cases hstep
        exact readerMoves_goto trivial fun _ => hreader
  | readIndex =>
      rw [hr] at hreader
      simp only [hr] at hstep
      cases hstep
      exact readerMoves_goto ⟨hreader, hreader⟩ nofun
  | readByte index =>
      rw [hr] at hreader
      simp only [hr] at hstep
      cases hstep
      exact readerMoves_goto hreader.1 nofun
  | readNext c =>
      rw [hr] at hreader
      simp only [hr] at hstep
      cases hstep
      exact readerMoves_goto hreader nofun
  | storePos c rdpos =>
      simp only [hr] at hstep
      cases hstep
      have hnext : (rdpos + 1) % stdoutBufSize < stdoutBufSize :=
        Nat.mod_lt _ (by decide)
      exact ⟨rfl, rfl, trivial, fun _ => hnext, fun _ => hnext⟩

/-! ## Runs -/

/-- What a step of the console does to the positions. -/
structure Console.Moves (s t : Console) : Prop where
  inRing : t.InRing
  keepsWrpos : s.ipc.executorToManager.stdoutWrpos < stdoutBufSize →
    t.ipc.executorToManager.stdoutWrpos < stdoutBufSize
  keepsRdpos : s.ipc.managerToExecutor.stdoutRdpos < stdoutBufSize →
    t.ipc.managerToExecutor.stdoutRdpos < stdoutBufSize
  writeReturns : s.writer ≠ [] → t.writer = [] →
    t.ipc.executorToManager.stdoutWrpos < stdoutBufSize
  getcharReturns : s.reader.isIdle = false → t.reader.isIdle = true →
    t.ipc.managerToExecutor.stdoutRdpos < stdoutBufSize

theorem Console.InRing.step {s t : Console} {a : ConsoleAction}
    (hs : s.InRing) (hstep : s.step a = some t) : s.Moves t := by
  cases a with
  | callWrite data =>
      simp only [Console.step] at hstep
      split at hstep
      next hw =>
        cases hstep
        exact ⟨⟨⟨trivial, .inl rfl⟩, hs.reader⟩, id, id, (by rintro _ ⟨⟩),
          fun h h' => absurd h' (by rw [h]; decide)⟩
      · cases hstep
  | writer =>
      simp only [Console.step] at hstep
      split at hstep
      · cases hstep
      next f outer hw =>
        have hm := writerMoves_writerStep hw (hw ▸ hs.writer) hstep
        constructor
        · refine ⟨hm.stack, ?_⟩
          rw [hm.rdpos, hm.reader]
          exact hs.reader
        · exact hm.keeps
        · exact fun h => hm.rdpos ▸ h
        · exact fun _ => hm.returns
        · intro h h'
          rw [hm.reader, h] at h'
          cases h'
  | callGetchar =>
      simp only [Console.step] at hstep
      split at hstep
      · cases hstep
        exact ⟨⟨hs.writer, trivial⟩, id, id, fun h h' => absurd h' h,
          (by rintro _ ⟨⟩)⟩
      · cases hstep
  | reader =>
      have hm := readerMoves_readerStep hs.reader hstep
      constructor
      · refine ⟨?_, hm.reader⟩
        rw [hm.wrpos, hm.writer]
        exact hs.writer
      · exact fun h => hm.wrpos ▸ h
      · exact hm.keeps
      · intro h h'
        exact absurd (hm.writer ▸ h') h
      · exact fun _ => hm.returns

/-- During a call of `writeToStdout`, the accesses of the writer use up its work
and those of the reader leave it. -/
theorem work_step {s t : Console} {a : ConsoleAction}
    (hs : s.InRing) (hbusy : s.writer ≠ []) (hstep : s.step a = some t) :
    t.work + (if a.isWriter then 1 else 0) ≤ s.work := by
  cases a with
  | callWrite data =>
      simp only [Console.step] at hstep
      split at hstep
      next hw => exact absurd hw hbusy
      · cases hstep
  | writer =>
      simp only [Console.step] at hstep
      split at hstep
      · cases hstep
      next f outer hw =>
        exact (writerMoves_writerStep hw (hw ▸ hs.writer) hstep).work
  | callGetchar =>
      simp only [Console.step] at hstep
      split at hstep
      · cases hstep
        exact Nat.le_refl _
      · cases hstep
  | reader =>
      have hm := readerMoves_readerStep hs.reader hstep
      rw [Console.work, hm.wrpos, hm.writer]
      exact Nat.le_refl _

theorem Console.InRing.writeEnds {s : Console} (hs : s.InRing) :
    s.WriteEnds := by
  constructor
  · intro hbusy
    obtain ⟨f, outer, hw⟩ := List.exists_cons_of_ne_nil hbusy
    have hgo := exists_writerStep (s := s) (hw ▸ hs.writer)
    simp only [Console.step, hw]
    exact hgo
  · refine ⟨s.work, ?_⟩
    intro as t hrun hcount
    have hstep : ∀ s a t, Console.InRing s → ¬s.writer = [] →
        s.step a = some t →
          t.InRing ∧ t.work + (if a.isWriter then 1 else 0) ≤ s.work :=
      fun s a t hs hbusy h => ⟨(hs.step h).inRing, work_step hs hbusy h⟩
    have hpos : ∀ s, Console.InRing s → ¬s.writer = [] → 0 < s.work := by
      intro s _ hbusy
      obtain ⟨f, outer, hw⟩ := List.exists_cons_of_ne_nil hbusy
      have hpc := f.pc.work_pos s.ipc.executorToManager.stdoutWrpos
      rw [Console.work, hw, List.map_cons, List.sum_cons, WriteCall.work]
      omega
    exact exists_prefix_of_measure hstep hpos hs hrun hcount

/-! ## Whole calls -/

theorem writeLoop_wrpos_lt {ipc : IpcBlock} (data : List UInt8) (wrote : ℕ)
    (hwr : ipc.executorToManager.stdoutWrpos < stdoutBufSize) :
    (writeLoop ipc wrote data).1.executorToManager.stdoutWrpos <
      stdoutBufSize := by
  induction data generalizing ipc wrote with
  | nil => exact hwr
  | cons b rest ih =>
      rw [writeLoop]
      split
      · exact hwr
      · exact ih _ (Nat.mod_lt _ (by decide))

theorem writeToStdout_of_wrpos_lt
    (depth : ℕ) {ipc : IpcBlock} (data : List UInt8)
    (hwr : ipc.executorToManager.stdoutWrpos < stdoutBufSize) :
    writeToStdout (depth + 1) ipc data =
      some ((writeLoop ipc 0 data).1,
        BitVec.ofNat 32 (writeLoop ipc 0 data).2) := by
  rw [writeToStdout, if_neg (Nat.not_le.mpr hwr)]
  rfl

/-- One level of recursion is enough. -/
theorem writeToStdout_ends (ipc : IpcBlock) (data : List UInt8) :
    ∃ ipc' count, writeToStdout 2 ipc data = some (ipc', count) ∧
      ipc'.executorToManager.stdoutWrpos < stdoutBufSize := by
  by_cases hwr : ipc.executorToManager.stdoutWrpos ≥ stdoutBufSize
  · have hzero : (ipc.setStdoutWrpos 0).executorToManager.stdoutWrpos <
        stdoutBufSize := Nat.zero_lt_succ 1023
    let repaired := (writeLoop (ipc.setStdoutWrpos 0) 0 wrposResetMessage).1
    have hrepaired : repaired.executorToManager.stdoutWrpos < stdoutBufSize :=
      writeLoop_wrpos_lt wrposResetMessage 0 hzero
    refine ⟨(writeLoop repaired 0 data).1,
      BitVec.ofNat 32 (writeLoop repaired 0 data).2, ?_,
      writeLoop_wrpos_lt data 0 hrepaired⟩
    rw [writeToStdout, if_pos hwr, writeToStdout_of_wrpos_lt 0 _ hzero]
    rfl
  · have hlt := Nat.not_le.mp hwr
    exact ⟨_, _, writeToStdout_of_wrpos_lt 1 data hlt,
      writeLoop_wrpos_lt data 0 hlt⟩

theorem getchar_rdpos_lt (ipc : IpcBlock) :
    (getchar ipc).1.managerToExecutor.stdoutRdpos < stdoutBufSize := by
  have hnext : ∀ rd, (rd + 1) % stdoutBufSize < stdoutBufSize :=
    fun rd => Nat.mod_lt _ (by decide)
  by_cases hrd : ipc.managerToExecutor.stdoutRdpos ≥ stdoutBufSize
  · simp only [getchar, if_pos hrd]
    split
    · exact hnext _
    · exact Nat.zero_lt_succ 1023
  · simp only [getchar, if_neg hrd]
    split
    · exact hnext _
    · exact Nat.not_le.mp hrd

/-! ## Draining -/

section Draining

variable {ipc : IpcBlock}

/-- Both positions lie in the ring. -/
structure IpcBlock.Valid (ipc : IpcBlock) : Prop where
  rdpos_lt : ipc.managerToExecutor.stdoutRdpos < stdoutBufSize
  wrpos_lt : ipc.executorToManager.stdoutWrpos < stdoutBufSize

theorem IpcBlock.Valid.unread_eq_nil_iff (hipc : ipc.Valid) :
    ipc.unread = [] ↔ ipc.managerToExecutor.stdoutRdpos =
      ipc.executorToManager.stdoutWrpos := by
  constructor
  · intro hempty
    by_contra hne
    have hunread := unread_setStdoutRdpos hipc.rdpos_lt hipc.wrpos_lt hne
    rw [hempty] at hunread
    cases hunread
  · intro heq
    apply List.eq_nil_of_length_eq_zero
    rw [IpcBlock.unread, length_segment, heq, count,
      Nat.add_sub_cancel_left, Nat.mod_self]

/-- `getchar` leaves an empty ring alone, and otherwise takes the first unread
byte. -/
theorem getchar_cases (hipc : ipc.Valid) :
    (ipc.unread = [] ∧ getchar ipc = (ipc, none)) ∨
      ∃ b, (getchar ipc).2 = some b ∧ (getchar ipc).1.Valid ∧
        ipc.unread = b :: (getchar ipc).1.unread := by
  have hrd : ¬ipc.managerToExecutor.stdoutRdpos ≥ stdoutBufSize :=
    Nat.not_le.mpr hipc.rdpos_lt
  by_cases hne : ipc.managerToExecutor.stdoutRdpos ≠
      ipc.executorToManager.stdoutWrpos
  · right
    have hget : getchar ipc =
        (ipc.setStdoutRdpos
            (next stdoutBufSize ipc.managerToExecutor.stdoutRdpos),
          some (ipc.executorToManager.stdoutBuf
            ipc.managerToExecutor.stdoutRdpos)) := by
      simp only [getchar, if_neg hrd, if_pos hne]
      rfl
    rw [hget]
    exact ⟨_, rfl, ⟨next_lt hipc.rdpos_lt, hipc.wrpos_lt⟩,
      unread_setStdoutRdpos hipc.rdpos_lt hipc.wrpos_lt hne⟩
  · left
    refine ⟨hipc.unread_eq_nil_iff.mpr (not_not.mp hne), ?_⟩
    simp only [getchar, if_neg hrd, if_neg hne]

theorem getcharTimes_valid (hipc : ipc.Valid) (n : ℕ) :
    (getcharTimes n ipc).Valid ∧
      (getcharTimes n ipc).unread = ipc.unread.drop n := by
  induction n generalizing ipc with
  | zero => exact ⟨hipc, rfl⟩
  | succ n ih =>
      rcases getchar_cases hipc with ⟨hempty, hget⟩ | ⟨b, -, hvalid, hunread⟩
      · rw [getcharTimes, hget]
        have h := ih hipc
        rwa [hempty, List.drop_nil] at h ⊢
      · rw [getcharTimes, hunread, List.drop_succ_cons]
        exact ih hvalid

theorem IpcBlock.Valid.drains (hipc : ipc.Valid) : ipc.Drains where
  shrinks := by
    intro c hc
    rcases getchar_cases hipc with ⟨-, hget⟩ | ⟨b, hb, -, hunread⟩
    · rw [hget] at hc
      cases hc
    · rw [hb] at hc
      cases hc
      exact hunread
  unread_le := by
    have hlt : ipc.unread.length < stdoutBufSize := by
      rw [IpcBlock.unread, length_segment]
      exact count_lt hipc.rdpos_lt
    omega
  ends := by
    intro n
    obtain ⟨hvalid, hunread⟩ := getcharTimes_valid hipc n
    rw [← List.drop_eq_nil_iff, ← hunread]
    rcases getchar_cases hvalid with ⟨hempty, hget⟩ | ⟨b, hb, -, hcons⟩
    · rw [hget]
      exact iff_of_true rfl hempty
    · rw [hb, hcons]
      exact iff_of_false (by rintro ⟨⟩) (by rintro ⟨⟩)

end Draining

/-! ## Any positions -/

structure Watched.Inv (w : Watched) : Prop where
  inRing : w.console.InRing
  wrpos_lt : w.writeDone = true →
    w.console.ipc.executorToManager.stdoutWrpos < stdoutBufSize
  rdpos_lt : w.getcharDone = true →
    w.console.ipc.managerToExecutor.stdoutRdpos < stdoutBufSize

theorem Watched.Inv.start (ipc : IpcBlock) : (Watched.start ipc).Inv :=
  ⟨⟨trivial, trivial⟩, nofun, nofun⟩

theorem Watched.Inv.step {w w' : Watched} {a : ConsoleAction}
    (hw : w.Inv) (hstep : w.step a = some w') : w'.Inv := by
  obtain ⟨t, ht, rfl⟩ := Option.map_eq_some_iff.mp hstep
  have hm := hw.inRing.step ht
  constructor
  · exact hm.inRing
  · intro hdone
    rcases Bool.or_eq_true_iff.mp hdone with hbefore | hnow
    · exact hm.keepsWrpos (hw.wrpos_lt hbefore)
    · obtain ⟨hbusy, hempty⟩ := Bool.and_eq_true_iff.mp hnow
      refine hm.writeReturns ?_ (List.isEmpty_iff.mp hempty)
      intro h
      rw [h] at hbusy
      cases hbusy
  · intro hdone
    rcases Bool.or_eq_true_iff.mp hdone with hbefore | hnow
    · exact hm.keepsRdpos (hw.rdpos_lt hbefore)
    · obtain ⟨hbusy, hidle⟩ := Bool.and_eq_true_iff.mp hnow
      exact hm.getcharReturns (Bool.not_eq_true' _ |>.mp hbusy) hidle

theorem Watched.Inv.safe {w : Watched} (hw : w.Inv) : w.Safe where
  stores := by
    intro f hf wrposNew index hpc
    have hstack := hw.inRing.writer
    obtain ⟨g, outer, hwriter⟩ := List.exists_cons_of_ne_nil
      (List.ne_nil_of_mem hf)
    rw [hwriter] at hstack hf
    rcases List.mem_cons.mp hf with rfl | houter
    · have h := hstack.1
      rw [hpc] at h
      exact h.2.2.2
    · -- an outer activation is at its loop
      rcases hstack.2 with rfl | ⟨-, -, g', rfl, hloop⟩
      · cases houter
      · obtain rfl := List.mem_singleton.mp houter
        rw [hloop] at hpc
        cases hpc
  reads := by
    intro index hr
    have h := hw.inRing.reader
    rw [hr] at h
    exact h.2
  depth := by
    have hstack := hw.inRing.writer
    cases hwriter : w.console.writer with
    | nil => exact Nat.zero_le _
    | cons f outer =>
        rw [hwriter] at hstack
        rcases hstack.2 with rfl | ⟨-, -, g, rfl, -⟩
        · exact Nat.le_succ 1
        · exact Nat.le_refl 2
  writeEnds := hw.inRing.writeEnds
  wrpos_lt := hw.wrpos_lt
  rdpos_lt := hw.rdpos_lt
  drains hwrite hgetchar :=
    IpcBlock.Valid.drains ⟨hw.rdpos_lt hgetchar, hw.wrpos_lt hwrite⟩

/-- Whatever the positions and the buffer contain at first, writer and reader
are safe in any interleaving of any calls, and each function by itself ends,
with the position of its side in the ring. -/
theorem positions_safe (ipc : IpcBlock) (as : List ConsoleAction) :
    Throughout Watched.step (Watched.start ipc) as Watched.Safe ∧
      (∀ data, ∃ ipc' count, writeToStdout 2 ipc data = some (ipc', count) ∧
        ipc'.executorToManager.stdoutWrpos < stdoutBufSize) ∧
      (getchar ipc).1.managerToExecutor.stdoutRdpos < stdoutBufSize := by
  refine ⟨?_, writeToStdout_ends ipc, getchar_rdpos_lt ipc⟩
  intro before w _ hrun
  have hinv : w.Inv := run_preserves (fun _ _ _ h ht => h.step ht)
    (Watched.Inv.start ipc) hrun
  exact hinv.safe

end Bmboot
