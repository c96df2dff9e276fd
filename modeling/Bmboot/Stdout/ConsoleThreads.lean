import Bmboot.Gic.InterruptController
import Bmboot.Stdout.Fifo
import Bmboot.Stdout.RunConsole

/-!
# Console threads

`startConsoleThread` and `runConsoleUntilInterrupted` (`domain_helpers.cpp`) in
one process.  Each domain has a thread of its own that runs `runConsole` and
shares the standard output ring with the monitor of the domain, and a flag that
the handler of SIGINT sets.  Threads, handler and the calls of the program
interleave store by store, with the writer of every ring in between.
-/

namespace Bmboot

open StepSystem

/-! ## Threads -/

/-- Where a thread stands in `runConsole`: at the test of the flag, inside
`getchar`, behind the loop, and at the end of the function. -/
inductive ThreadPc
  | test
  | poll
  | finish
  | ended
  deriving DecidableEq

/-- A console thread.  What `getchar` has returned is history: no step reads
it. -/
structure ConsoleThread where
  pc : ThreadPc
  printer : LinePrinter
  polls : List (Option UInt8)

namespace ConsoleThread

def start : ConsoleThread :=
  { pc := .test, printer := .start, polls := [] }

/-- The rest of a round, with the result of `getchar`. -/
def receive (th : ConsoleThread) (c : Option UInt8) : ConsoleThread :=
  { pc := .test, printer := th.printer.onChar c, polls := th.polls ++ [c] }

/-- The thread has seen the flag set. -/
def Stopped (th : ConsoleThread) : Prop := th.pc = .finish ∨ th.pc = .ended

instance (th : ConsoleThread) : Decidable th.Stopped :=
  inferInstanceAs (Decidable (_ ∨ _))

end ConsoleThread

/-- What a call of `getchar` returns whose next access is its last. -/
def GetcharPc.result : GetcharPc → Option UInt8
  | .storePos c _ => some c
  | _ => none

/-- What belongs to one domain: the ring, the flag `console_interrupted`, the
slot of `console_threads`, and the threads that have been joined. -/
structure Terminal where
  console : Console
  interrupted : Bool
  thread : Option ConsoleThread
  joined : List ConsoleThread

namespace Terminal

/-- One step of `runConsole`, an access of `getchar` being one. -/
def threadStep (t : Terminal) : Option Terminal :=
  match t.thread with
  | none => none
  | some th =>
      match th.pc with
      | .test =>
          if t.interrupted then
            some { t with thread := some { th with pc := .finish } }
          else
            (t.console.step .callGetchar).map fun console =>
              { t with
                console := console
                thread := some { th with pc := .poll } }
      | .poll =>
          (t.console.step .reader).map fun console =>
            { t with
              console := console
              thread :=
                match console.reader with
                | .idle => some (th.receive t.console.reader.result)
                | _ => some th }
      | .finish =>
          some { t with
            thread := some { th with pc := .ended, printer := th.printer.finish } }
      | .ended => none

/-- A thread is started unless there is one that can be joined. -/
def startConsoleThread (t : Terminal) : Terminal :=
  match t.thread with
  | none => { t with thread := some .start }
  | some _ => t

/-- `join` returns when the thread has ended. -/
def join (t : Terminal) : Option Terminal :=
  match t.thread with
  | none => none
  | some th =>
      if th.pc = .ended then
        some { t with thread := none, joined := t.joined ++ [th] }
      else none

/-- An access of `writeToStdout`, or a call of it. -/
def writerStep (t : Terminal) (a : ConsoleAction) : Option Terminal :=
  (t.console.step a).map fun console => { t with console := console }

/-- All threads of the domain, oldest first. -/
def threads (t : Terminal) : List ConsoleThread := t.joined ++ t.thread.toList

end Terminal

/-! ## The process -/

/-- Where the calling program stands; `join` says which of the two functions
`startThread` belongs to. -/
inductive CallerPc
  | idle
  | clearFlag (d : DomainIndex)
  | setHandler (d : DomainIndex)
  | startThread (d : DomainIndex) (join : Bool)
  | join (d : DomainIndex)
  deriving DecidableEq

/-- A process that is linked with the manager library. -/
structure ConsoleProcess where
  terminal : DomainIndex → Terminal
  caller : CallerPc
  handlerInstalled : Bool
  /-- The flags that the running signal handler has still to set. -/
  toStop : List DomainIndex
  /-- SIGINT came without a handler. -/
  killed : Bool

inductive ConsoleProcessAction
  | startConsoleThread (d : DomainIndex)
  | runConsoleUntilInterrupted (d : DomainIndex)
  | caller
  | thread (d : DomainIndex)
  | sigint
  | handler
  | callWrite (d : DomainIndex) (data : List UInt8)
  | writer (d : DomainIndex)
  deriving DecidableEq

namespace ConsoleProcess

variable (s : ConsoleProcess)

def setTerminal (d : DomainIndex) (t : Terminal) : ConsoleProcess :=
  { s with terminal := Function.update s.terminal d t }

def setInterrupted (d : DomainIndex) (value : Bool) : ConsoleProcess :=
  s.setTerminal d { s.terminal d with interrupted := value }

/-- The order in which the handler goes through the flags. -/
def domains : List DomainIndex := [.cpu1, .cpu2, .cpu3]

def callerStep : Option ConsoleProcess :=
  match s.caller with
  | .idle => none
  | .clearFlag d =>
      some { s.setInterrupted d false with caller := .setHandler d }
  | .setHandler d =>
      some { s with handlerInstalled := true, caller := .startThread d true }
  | .startThread d join =>
      some { s.setTerminal d (s.terminal d).startConsoleThread with
        caller := if join then .join d else .idle }
  | .join d =>
      (s.terminal d).join.map fun t =>
        { s.setTerminal d t with caller := .idle }

/-- Any step but one of a payload. -/
def processStep : ConsoleProcessAction → Option ConsoleProcess
  | .startConsoleThread d =>
      if s.caller = .idle then some { s with caller := .startThread d false }
      else none
  | .runConsoleUntilInterrupted d =>
      if s.caller = .idle then some { s with caller := .clearFlag d }
      else none
  | .caller => s.callerStep
  | .thread d => (s.terminal d).threadStep.map (s.setTerminal d)
  | .sigint =>
      if s.handlerInstalled then
        if s.toStop = [] then some { s with toStop := domains } else none
      else some { s with killed := true }
  | .handler =>
      match s.toStop with
      | [] => none
      | d :: rest => some { s.setInterrupted d true with toStop := rest }
  | .callWrite _ _ | .writer _ => none

/-- SIGINT waits while its handler runs.  A killed process takes no step, but the
payloads go on. -/
def step : ConsoleProcessAction → Option ConsoleProcess
  | .callWrite d data =>
      ((s.terminal d).writerStep (.callWrite data)).map (s.setTerminal d)
  | .writer d => ((s.terminal d).writerStep .writer).map (s.setTerminal d)
  | a => if s.killed then none else s.processStep a

/-- A process that has not called the library yet. -/
structure Initial : Prop where
  console : ∀ d, (s.terminal d).console.Initial
  thread : ∀ d, (s.terminal d).thread = none
  joined : ∀ d, (s.terminal d).joined = []
  caller : s.caller = .idle
  handlerInstalled : s.handlerInstalled = false
  killed : s.killed = false

end ConsoleProcess

/-! ## What a thread prints -/

namespace ConsoleThread

variable {th : ConsoleThread}

/-- The printer is where the results of `getchar` lead. -/
def Printed (th : ConsoleThread) : Prop :=
  th.printer =
    if th.pc = .ended then (LinePrinter.start.loop th.polls).finish
    else LinePrinter.start.loop th.polls

theorem printed_start : start.Printed := rfl

theorem Printed.receive (h : th.Printed) (hpc : th.pc = .poll)
    (c : Option UInt8) : (th.receive c).Printed := by
  have hprinter : th.printer = LinePrinter.start.loop th.polls := by
    simpa [Printed, hpc] using h
  simp only [Printed, ConsoleThread.receive, hprinter, reduceCtorEq, if_false,
    LinePrinter.loop_append]
  rfl

theorem Printed.goto (h : th.Printed) (hpc : th.pc ≠ .ended) {pc : ThreadPc}
    (hpc' : pc ≠ .ended) : Printed { th with pc := pc } := by
  simp only [Printed, hpc, hpc', if_false] at h ⊢
  exact h

theorem Printed.finish (h : th.Printed) (hpc : th.pc = .finish) :
    Printed { th with pc := .ended, printer := th.printer.finish } := by
  have hprinter : th.printer = LinePrinter.start.loop th.polls := by
    simpa [Printed, hpc] using h
  simp only [Printed, if_true, hprinter]

/-- A thread that has ended has printed what `runConsole` prints. -/
theorem Printed.ended (h : th.Printed) (hpc : th.pc = .ended) :
    th.printer.printed = runConsole th.polls := by
  have hprinter : th.printer = (LinePrinter.start.loop th.polls).finish := by
    simpa [Printed, hpc] using h
  rw [hprinter]
  rfl

theorem Printed.short (h : th.Printed) :
    ∀ line ∈ th.printer.printed, line.length ≤ maxLineLength := by
  have hloop := LinePrinter.loop_preserves LinePrinter.WithinLimit
    (fun _ c hs => LinePrinter.withinLimit_onChar hs c) th.polls
    LinePrinter.withinLimit_start
  rw [h]
  split
  · exact (LinePrinter.withinLimit_finish hloop).printed
  · exact hloop.printed

end ConsoleThread

/-! ## One terminal -/

/-- The results of all calls of `getchar` on the domain. -/
def Terminal.polls (t : Terminal) : List (Option UInt8) :=
  t.threads.flatMap ConsoleThread.polls

/-- The thread inside `getchar` is the only reader of the ring. -/
def Terminal.ReaderOk (t : Terminal) : Prop :=
  t.console.reader = .idle ↔ ∀ th ∈ t.thread, th.pc ≠ .poll

structure TerminalInv (initial : List UInt8) (t : Terminal) : Prop where
  console : ConsoleInv t.console
  conserves : Channel.Conserves initial t.console.channel
  reader : t.ReaderOk
  returned : t.console.returned = t.polls.reduceOption
  printed : ∀ th ∈ t.threads, th.Printed
  joined : ∀ th ∈ t.joined, th.pc = .ended

/-- An access of `getchar` ends the call or does not. -/
theorem Console.readerStep_cases {s t : Console} (h : s.readerStep = some t) :
    s.reader ≠ .idle ∧
      (t.reader = .idle ∧ t.returned = s.returned ++ s.reader.result.toList ∨
        t.reader ≠ .idle ∧ t.returned = s.returned) := by
  unfold Console.readerStep at h
  cases hpc : s.reader with
  | idle => simp [hpc] at h
  | checkPos =>
      refine ⟨GetcharPc.noConfusion, .inr ?_⟩
      simp only [hpc] at h
      split at h <;> cases h <;> exact ⟨GetcharPc.noConfusion, rfl⟩
  | readWrpos rdpos =>
      refine ⟨GetcharPc.noConfusion, ?_⟩
      simp only [hpc] at h
      split at h <;> cases h
      · exact .inr ⟨GetcharPc.noConfusion, rfl⟩
      · exact .inl ⟨rfl, (List.append_nil _).symm⟩
  | storePos c rdpos =>
      simp only [hpc, Option.some.injEq] at h
      subst h
      exact ⟨GetcharPc.noConfusion, .inl ⟨rfl, rfl⟩⟩
  | resetPos | readRdpos | readIndex | readByte index | readNext c =>
      simp only [hpc, Option.some.injEq] at h
      subst h
      exact ⟨GetcharPc.noConfusion, .inr ⟨GetcharPc.noConfusion, rfl⟩⟩

/-- The writer takes nothing from the reader. -/
theorem Console.step_writer_reader {s t : Console} {a : ConsoleAction}
    (ha : a = .writer ∨ ∃ data, a = .callWrite data) (h : s.step a = some t) :
    t.reader = s.reader ∧ t.returned = s.returned := by
  rcases ha with rfl | ⟨data, rfl⟩
  · simp only [Console.step] at h
    split at h
    · cases h
    · simp only [Console.writerStep] at h
      (repeat' split at h) <;> cases h <;> exact ⟨rfl, rfl⟩
  · simp only [Console.step] at h
    split at h <;> cases h
    exact ⟨rfl, rfl⟩

theorem conserves_step
    {initial : List UInt8} {s t : Console} {a : ConsoleAction}
    (hs : ConsoleInv s) (hconserves : Channel.Conserves initial s.channel)
    (h : s.step a = some t) : Channel.Conserves initial t.channel := by
  rcases (hs.step h).2 with hsame | ⟨m, hm⟩
  · rwa [hsame]
  · exact Channel.step_conserves hconserves hm

section Terminal

variable {initial : List UInt8} {t t' : Terminal}

theorem Terminal.polls_eq (t : Terminal) :
    t.polls = t.joined.flatMap ConsoleThread.polls ++
      t.thread.toList.flatMap ConsoleThread.polls := by
  rw [Terminal.polls, Terminal.threads, List.flatMap_append]

/-- The flag and the history of a thread that goes on are not looked at. -/
theorem TerminalInv.setInterrupted (ht : TerminalInv initial t) (value : Bool) :
    TerminalInv initial { t with interrupted := value } :=
  ⟨ht.console, ht.conserves, ht.reader, ht.returned, ht.printed, ht.joined⟩

/-- A thread moves on without a result of `getchar`. -/
theorem TerminalInv.moveThread
    {th th' : ConsoleThread} {console : Console}
    (ht : TerminalInv initial t) (hthread : t.thread = some th)
    (hconsole : ConsoleInv console)
    (hconserves : Channel.Conserves initial console.channel)
    (hreader : console.reader = .idle ↔ th'.pc ≠ .poll)
    (hreturned : console.returned = t.console.returned)
    (hpolls : th'.polls = th.polls) (hprinted : th'.Printed) :
    TerminalInv initial { t with console := console, thread := some th' } where
  console := hconsole
  conserves := hconserves
  reader := by simpa [Terminal.ReaderOk] using hreader
  returned := by
    rw [hreturned, ht.returned, Terminal.polls_eq, Terminal.polls_eq, hthread]
    simp [hpolls]
  printed := by
    intro th₀ hth₀
    simp only [Terminal.threads, Option.toList_some, List.mem_append,
      List.mem_singleton] at hth₀
    rcases hth₀ with hjoined | rfl
    · exact ht.printed th₀ (List.mem_append_left _ hjoined)
    · exact hprinted
  joined := ht.joined

/-- A result of `getchar` goes to the printer. -/
theorem TerminalInv.receive
    {th : ConsoleThread} {console : Console} {c : Option UInt8}
    (ht : TerminalInv initial t) (hthread : t.thread = some th)
    (hpc : th.pc = .poll) (hconsole : ConsoleInv console)
    (hconserves : Channel.Conserves initial console.channel)
    (hreader : console.reader = .idle)
    (hreturned : console.returned = t.console.returned ++ c.toList) :
    TerminalInv initial
      { t with console := console, thread := some (th.receive c) } where
  console := hconsole
  conserves := hconserves
  reader := by simp [Terminal.ReaderOk, hreader, ConsoleThread.receive]
  returned := by
    have hc : List.reduceOption [c] = c.toList := by cases c <;> rfl
    rw [hreturned, ht.returned, Terminal.polls_eq, Terminal.polls_eq, hthread,
      ← hc, ← List.reduceOption_append]
    simp [ConsoleThread.receive]
  printed := by
    intro th₀ hth₀
    simp only [Terminal.threads, Option.toList_some, List.mem_append,
      List.mem_singleton] at hth₀
    rcases hth₀ with hjoined | rfl
    · exact ht.printed th₀ (List.mem_append_left _ hjoined)
    · have hth : th.Printed := by
        apply ht.printed
        simp [Terminal.threads, hthread]
      exact hth.receive hpc c
  joined := ht.joined

theorem TerminalInv.threadStep
    (ht : TerminalInv initial t) (h : t.threadStep = some t') :
    TerminalInv initial t' := by
  unfold Terminal.threadStep at h
  cases hthread : t.thread with
  | none => simp [hthread] at h
  | some th =>
      have hth : th.Printed := by
        apply ht.printed
        simp [Terminal.threads, hthread]
      have hreader : t.console.reader = .idle ↔ th.pc ≠ .poll := by
        simpa [Terminal.ReaderOk, hthread] using ht.reader
      simp only [hthread] at h
      cases hpc : th.pc with
      | test =>
          simp only [hpc] at h
          split at h
          · cases h
            refine ht.moveThread hthread ht.console ht.conserves ?_ rfl ?_ ?_
            · simpa [hpc] using hreader
            · rfl
            · exact hth.goto (by simp [hpc]) ThreadPc.noConfusion
          · obtain ⟨console, hstep, rfl⟩ := Option.map_eq_some_iff.mp h
            have hinv := ht.console.step hstep
            have hidle : t.console.reader = .idle := hreader.mpr (by simp [hpc])
            simp only [Console.step, hidle, Option.some.injEq] at hstep
            subst hstep
            refine ht.moveThread hthread hinv.1 ht.conserves ?_ rfl ?_ ?_
            · simp
            · rfl
            · exact hth.goto (by simp [hpc]) ThreadPc.noConfusion
      | poll =>
          simp only [hpc] at h
          obtain ⟨console, hstep, rfl⟩ := Option.map_eq_some_iff.mp h
          have hconsole := (ht.console.step hstep).1
          have hconserves := conserves_step ht.console ht.conserves hstep
          obtain ⟨-, ⟨hidle, hreturned⟩ | ⟨hbusy, hreturned⟩⟩ :=
            Console.readerStep_cases hstep
          · simp only [hidle]
            exact ht.receive hthread hpc hconsole hconserves hidle hreturned
          · have hsame : (match console.reader with
                | .idle => some (th.receive t.console.reader.result)
                | _ => some th) = some th := by
              split
              next hidle => exact absurd hidle hbusy
              · rfl
            rw [hsame]
            refine ht.moveThread hthread hconsole hconserves ?_ hreturned rfl hth
            simp [hbusy, hpc]
      | finish =>
          simp only [hpc, Option.some.injEq] at h
          subst h
          refine ht.moveThread hthread ht.console ht.conserves ?_ rfl ?_ ?_
          · simpa [hpc] using hreader
          · rfl
          · exact hth.finish hpc
      | ended => simp [hpc] at h

theorem TerminalInv.startConsoleThread (ht : TerminalInv initial t) :
    TerminalInv initial t.startConsoleThread := by
  unfold Terminal.startConsoleThread
  cases hthread : t.thread with
  | some th => exact ht
  | none =>
      have hidle : t.console.reader = .idle := by
        simpa [Terminal.ReaderOk, hthread] using ht.reader
      refine ⟨ht.console, ht.conserves, ?_, ?_, ?_, ht.joined⟩
      · simp [Terminal.ReaderOk, hidle, ConsoleThread.start]
      · have hreturned := ht.returned
        rw [Terminal.polls_eq, hthread] at hreturned
        rw [Terminal.polls_eq]
        simpa [ConsoleThread.start] using hreturned
      · intro th hth
        simp only [Terminal.threads, Option.toList_some, List.mem_append,
          List.mem_singleton] at hth
        rcases hth with hjoined | rfl
        · exact ht.printed th (List.mem_append_left _ hjoined)
        · exact ConsoleThread.printed_start

theorem TerminalInv.join (ht : TerminalInv initial t) (h : t.join = some t') :
    TerminalInv initial t' := by
  unfold Terminal.join at h
  cases hthread : t.thread with
  | none => simp [hthread] at h
  | some th =>
      simp only [hthread] at h
      split at h
      next hended =>
        cases h
        have hidle : t.console.reader = .idle := by
          have hreader := ht.reader
          simp only [Terminal.ReaderOk, hthread, Option.mem_def,
            Option.some.injEq, forall_eq'] at hreader
          exact hreader.mpr (by simp [hended])
        have hthreads : t.threads = t.joined ++ [th] := by
          rw [Terminal.threads, hthread]
          rfl
        refine ⟨ht.console, ht.conserves, ?_, ?_, ?_, ?_⟩
        · simp [Terminal.ReaderOk, hidle]
        · rw [ht.returned, Terminal.polls, Terminal.polls, hthreads]
          simp [Terminal.threads]
        · intro th₀ hth₀
          apply ht.printed
          rw [hthreads]
          simpa [Terminal.threads] using hth₀
        · intro th₀ hth₀
          rcases List.mem_append.mp hth₀ with hjoined | hlast
          · exact ht.joined th₀ hjoined
          · rw [List.mem_singleton.mp hlast]
            exact hended
      · cases h

theorem TerminalInv.writerStep
    {a : ConsoleAction} (ha : a = .writer ∨ ∃ data, a = .callWrite data)
    (ht : TerminalInv initial t) (h : t.writerStep a = some t') :
    TerminalInv initial t' := by
  obtain ⟨console, hstep, rfl⟩ := Option.map_eq_some_iff.mp h
  obtain ⟨hreader, hreturned⟩ := Console.step_writer_reader ha hstep
  refine ⟨(ht.console.step hstep).1,
    conserves_step ht.console ht.conserves hstep, ?_, ?_, ht.printed, ht.joined⟩
  · rw [Terminal.ReaderOk, hreader]
    exact ht.reader
  · rw [hreturned]
    exact ht.returned

end Terminal

/-! ## Steps of the process -/

namespace ConsoleProcess

variable {s t : ConsoleProcess} {a : ConsoleProcessAction} {d d' : DomainIndex}

@[simp] theorem terminal_setTerminal_self (u : Terminal) :
    (s.setTerminal d u).terminal d = u :=
  Function.update_self _ _ _

theorem terminal_setTerminal (u : Terminal) :
    (s.setTerminal d u).terminal d' = if d' = d then u else s.terminal d' :=
  Function.update_apply _ _ _ _

/-- What a step can do to the terminal of a domain. -/
inductive TerminalMove (s : ConsoleProcess) (d : DomainIndex) (u : Terminal) :
    ConsoleProcessAction → Prop
  | same {a : ConsoleProcessAction} (ha : a ≠ .thread d) (h : u = s.terminal d) :
      TerminalMove s d u a
  | thread (h : (s.terminal d).threadStep = some u) : TerminalMove s d u (.thread d)
  | callWrite (data : List UInt8)
      (h : (s.terminal d).writerStep (.callWrite data) = some u) :
      TerminalMove s d u (.callWrite d data)
  | writer (h : (s.terminal d).writerStep .writer = some u) :
      TerminalMove s d u (.writer d)
  | start (join : Bool) (hcaller : s.caller = .startThread d join)
      (h : u = (s.terminal d).startConsoleThread) : TerminalMove s d u .caller
  | join (hcaller : s.caller = .join d) (h : (s.terminal d).join = some u) :
      TerminalMove s d u .caller
  | clear (hcaller : s.caller = .clearFlag d)
      (h : u = { s.terminal d with interrupted := false }) :
      TerminalMove s d u .caller
  | interrupt (h : u = { s.terminal d with interrupted := true }) :
      TerminalMove s d u .handler

/-- A step that changes the terminal of one domain only. -/
theorem terminalMove_of_eq
    {u : Terminal} (ha : ∀ d', a = .thread d' → d' = d)
    (hmove : TerminalMove s d u a)
    (ht : ∀ d', t.terminal d' = (s.setTerminal d u).terminal d') :
    TerminalMove s d' (t.terminal d') a := by
  rw [ht, terminal_setTerminal]
  by_cases hd : d' = d
  · subst hd
    rw [if_pos rfl]
    exact hmove
  · rw [if_neg hd]
    exact .same (fun h => hd (ha d' h)) rfl

theorem step_eq_processStep (h : s.step a = some t) :
    (∃ d data, a = .callWrite d data ∧
        ((s.terminal d).writerStep (.callWrite data)).map (s.setTerminal d) =
          some t) ∨
      (∃ d, a = .writer d ∧
        ((s.terminal d).writerStep .writer).map (s.setTerminal d) = some t) ∨
      s.killed = false ∧ s.processStep a = some t := by
  cases a with
  | callWrite d data => exact .inl ⟨d, data, rfl, h⟩
  | writer d => exact .inr (.inl ⟨d, rfl, h⟩)
  | startConsoleThread | runConsoleUntilInterrupted | caller | thread | sigint
  | handler =>
      right; right
      simp only [step] at h
      split at h
      · cases h
      next hkilled => exact ⟨Bool.eq_false_of_not_eq_true hkilled, h⟩

theorem callerStep_terminal (h : s.callerStep = some t) (d' : DomainIndex) :
    TerminalMove s d' (t.terminal d') .caller := by
  unfold callerStep at h
  cases hcaller : s.caller with
  | idle => simp [hcaller] at h
  | clearFlag d =>
      simp only [hcaller, Option.some.injEq] at h
      subst h
      exact terminalMove_of_eq (by simp) (.clear hcaller rfl) fun _ => rfl
  | setHandler d =>
      simp only [hcaller, Option.some.injEq] at h
      subst h
      exact .same (by simp) rfl
  | startThread d join =>
      simp only [hcaller, Option.some.injEq] at h
      subst h
      exact terminalMove_of_eq (by simp) (.start join hcaller rfl) fun _ => rfl
  | join d =>
      simp only [hcaller] at h
      obtain ⟨u, hu, rfl⟩ := Option.map_eq_some_iff.mp h
      exact terminalMove_of_eq (by simp) (.join hcaller hu) fun _ => rfl

theorem step_terminal (h : s.step a = some t) (d' : DomainIndex) :
    TerminalMove s d' (t.terminal d') a := by
  rcases step_eq_processStep h with
    ⟨d, data, rfl, hstep⟩ | ⟨d, rfl, hstep⟩ | ⟨-, hstep⟩
  · obtain ⟨u, hu, rfl⟩ := Option.map_eq_some_iff.mp hstep
    exact terminalMove_of_eq (by simp) (.callWrite data hu) fun _ => rfl
  · obtain ⟨u, hu, rfl⟩ := Option.map_eq_some_iff.mp hstep
    exact terminalMove_of_eq (by simp) (.writer hu) fun _ => rfl
  · cases a with
    | callWrite | writer => cases hstep
    | startConsoleThread | runConsoleUntilInterrupted =>
        simp only [processStep] at hstep
        split at hstep <;> cases hstep
        exact .same (by simp) rfl
    | caller => exact callerStep_terminal hstep d'
    | thread d =>
        obtain ⟨u, hu, rfl⟩ := Option.map_eq_some_iff.mp hstep
        exact terminalMove_of_eq (by simp) (.thread hu) fun _ => rfl
    | sigint =>
        simp only [processStep] at hstep
        (repeat' split at hstep) <;> cases hstep <;> exact .same (by simp) rfl
    | handler =>
        simp only [processStep] at hstep
        split at hstep <;> cases hstep
        exact terminalMove_of_eq (by simp) (.interrupt rfl) fun _ => rfl

/-! ## What the process prints -/

theorem terminalInv_step
    {initial : DomainIndex → List UInt8}
    (hs : ∀ d, TerminalInv (initial d) (s.terminal d))
    (hstep : s.step a = some t) (d : DomainIndex) :
    TerminalInv (initial d) (t.terminal d) := by
  generalize hu : t.terminal d = u
  have hmove := step_terminal hstep d
  rw [hu] at hmove
  cases hmove with
  | same _ h => exact h ▸ hs d
  | thread h => exact (hs d).threadStep h
  | callWrite data h => exact (hs d).writerStep (.inr ⟨data, rfl⟩) h
  | writer h => exact (hs d).writerStep (.inl rfl) h
  | start join _ h => exact h ▸ (hs d).startConsoleThread
  | join _ h => exact (hs d).join h
  | clear _ h => exact h ▸ (hs d).setInterrupted false
  | interrupt h => exact h ▸ (hs d).setInterrupted true

theorem Initial.terminalInv (h : s.Initial) (d : DomainIndex) :
    TerminalInv (s.terminal d).console.ipc.unread (s.terminal d) where
  console := (h.console d).inv
  conserves := by
    simp [Channel.Conserves, Console.channel, (h.console d).returned_nil,
      (h.console d).accepted_nil]
  reader := by simp [Terminal.ReaderOk, (h.console d).reader_idle, h.thread d]
  returned := by
    simp [Terminal.polls, Terminal.threads, h.thread d, h.joined d,
      (h.console d).returned_nil]
  printed := by simp [Terminal.threads, h.thread d, h.joined d]
  joined := by simp [h.joined d]

theorem terminalInv_run
    {as : List ConsoleProcessAction} (hinit : s.Initial)
    (hrun : run step s as = some t) :
    ∀ d, TerminalInv (s.terminal d).console.ipc.unread (t.terminal d) := by
  have hstep : ∀ (u : ConsoleProcess) (a : ConsoleProcessAction)
      (v : ConsoleProcess),
      (∀ d, TerminalInv (s.terminal d).console.ipc.unread (u.terminal d)) →
      u.step a = some v →
      ∀ d, TerminalInv (s.terminal d).console.ipc.unread (v.terminal d) :=
    fun _ _ _ hu hv => terminalInv_step hu hv
  exact run_preserves hstep hinit.terminalInv hrun

end ConsoleProcess

/-- The text of a thread, printed or about to be printed. -/
theorem ConsoleThread.Printed.text_eq
    {th : ConsoleThread} (h : th.Printed) (hpolls : some 0 ∉ th.polls) :
    th.printer.text = th.polls.reduceOption.filter (· ≠ newline) := by
  have hstart : 0 ∉ LinePrinter.start.accum := List.not_mem_nil
  obtain ⟨htext, haccum⟩ := LinePrinter.text_loop th.polls hstart hpolls
  have hloop : (LinePrinter.start.loop th.polls).text =
      th.polls.reduceOption.filter (· ≠ newline) := htext
  rw [h]
  split
  · rw [LinePrinter.text, LinePrinter.flatten_finish haccum, hloop]
    have hempty : (LinePrinter.start.loop th.polls).finish.accum = [] := by
      rw [LinePrinter.finish]
      split
      · rfl
      next hpending => exact List.length_eq_zero_iff.mp (by omega)
    rw [hempty, List.append_nil]
  · exact hloop

theorem flatMap_text_eq {ths : List ConsoleThread}
    (hprinted : ∀ th ∈ ths, th.Printed) (hpolls : ∀ th ∈ ths, some 0 ∉ th.polls) :
    (ths.flatMap fun th => th.printer.text) =
      (ths.flatMap ConsoleThread.polls).reduceOption.filter (· ≠ newline) := by
  induction ths with
  | nil => rfl
  | cons th ths ih =>
      rw [List.forall_mem_cons] at hpolls hprinted
      rw [List.flatMap_cons, List.flatMap_cons, List.reduceOption_append,
        List.filter_append, hprinted.1.text_eq hpolls.1,
        ih hprinted.2 hpolls.2]

/-- The text of all threads of a domain. -/
def Terminal.text (t : Terminal) : List UInt8 :=
  t.threads.flatMap fun th => th.printer.text

theorem TerminalInv.text_eq
    {initial : List UInt8} {t : Terminal} (ht : TerminalInv initial t)
    (hnul : 0 ∉ t.console.returned) :
    t.text = t.console.returned.filter (· ≠ newline) := by
  rw [ht.returned] at hnul ⊢
  have hpolls : ∀ th ∈ t.threads, some 0 ∉ th.polls := by
    intro th hth h0
    apply hnul
    rw [List.reduceOption_mem_iff]
    exact List.mem_flatMap.mpr ⟨th, hth, h0⟩
  exact flatMap_text_eq ht.printed hpolls

namespace ConsoleProcess

/-- Whatever the threads, the signals and the payload do, a domain's text is
printed in order and once.  What its threads have read, followed by what is
unread, is what was unread at first followed by what the ring has accepted; a
thread that has ended has printed what `runConsole` makes of its part, in lines
of at most 160 bytes; and unless a NUL is among the bytes, the lines and the
one in the making have them all but the newlines. -/
theorem console_prints_stream
    {s t : ConsoleProcess} {as : List ConsoleProcessAction}
    (hinit : s.Initial) (hrun : run step s as = some t) (d : DomainIndex) :
    (t.terminal d).polls.reduceOption ++ (t.terminal d).console.ipc.unread =
        (s.terminal d).console.ipc.unread ++ (t.terminal d).console.accepted ∧
      (∀ th ∈ (t.terminal d).threads, th.pc = .ended →
        th.printer.printed = runConsole th.polls) ∧
      (∀ th ∈ (t.terminal d).threads, ∀ line ∈ th.printer.printed,
        line.length ≤ 160) ∧
      (0 ∉ (s.terminal d).console.ipc.unread ++ (t.terminal d).console.accepted →
        (t.terminal d).text ++
            (t.terminal d).console.ipc.unread.filter (· ≠ newline) =
          ((s.terminal d).console.ipc.unread ++
            (t.terminal d).console.accepted).filter (· ≠ newline)) := by
  have hinv := terminalInv_run hinit hrun d
  have hstream : (t.terminal d).console.returned ++
      (t.terminal d).console.ipc.unread =
        (s.terminal d).console.ipc.unread ++ (t.terminal d).console.accepted :=
    hinv.conserves
  refine ⟨?_, ?_, ?_, ?_⟩
  · rw [← hinv.returned]
    exact hstream
  · intro th hth hended
    exact (hinv.printed th hth).ended hended
  · intro th hth
    exact (hinv.printed th hth).short
  · intro hnul
    rw [← hstream] at hnul ⊢
    rw [List.filter_append, hinv.text_eq]
    exact fun h => hnul (List.mem_append_left _ h)

end ConsoleProcess

/-! ## When a thread stops -/

/-- A step of a thread keeps it in its slot, and stops it only if the flag is
set. -/
theorem Terminal.threadStep_stopped {t t' : Terminal}
    (h : t.threadStep = some t') :
    t'.interrupted = t.interrupted ∧
      ∃ th th', t.thread = some th ∧ t'.thread = some th' ∧
        (th'.Stopped → th.Stopped ∨ t.interrupted = true) := by
  unfold Terminal.threadStep at h
  cases hthread : t.thread with
  | none => simp [hthread] at h
  | some th =>
      simp only [hthread] at h
      cases hpc : th.pc with
      | test =>
          simp only [hpc] at h
          split at h
          next hint =>
            cases h
            exact ⟨rfl, th, _, rfl, rfl, fun _ => .inr hint⟩
          · obtain ⟨console, -, rfl⟩ := Option.map_eq_some_iff.mp h
            refine ⟨rfl, th, _, rfl, rfl, fun hstopped => ?_⟩
            simp [ConsoleThread.Stopped] at hstopped
      | poll =>
          simp only [hpc] at h
          obtain ⟨console, -, rfl⟩ := Option.map_eq_some_iff.mp h
          cases console.reader with
          | idle =>
              refine ⟨rfl, th, _, rfl, rfl, fun hstopped => ?_⟩
              simp [ConsoleThread.Stopped, ConsoleThread.receive] at hstopped
          | _ => exact ⟨rfl, th, th, rfl, rfl, .inl⟩
      | finish =>
          simp only [hpc, Option.some.injEq] at h
          subst h
          exact ⟨rfl, th, _, rfl, rfl, fun _ => .inl (.inl hpc)⟩
      | ended => simp [hpc] at h

theorem Terminal.writerStep_thread {t t' : Terminal} {a : ConsoleAction}
    (h : t.writerStep a = some t') :
    t'.thread = t.thread ∧ t'.interrupted = t.interrupted := by
  obtain ⟨console, -, rfl⟩ := Option.map_eq_some_iff.mp h
  exact ⟨rfl, rfl⟩

theorem Terminal.join_eq_some {t t' : Terminal} (h : t.join = some t') :
    t'.thread = none ∧ ∃ th, t.thread = some th ∧ th.pc = .ended := by
  unfold Terminal.join at h
  cases hthread : t.thread with
  | none => simp [hthread] at h
  | some th =>
      simp only [hthread] at h
      split at h
      next hended =>
        cases h
        exact ⟨rfl, th, rfl, hended⟩
      · cases h

namespace ConsoleProcess

variable {s t : ConsoleProcess} {a : ConsoleProcessAction} {d : DomainIndex}

/-- A thread has stopped only where the flag is set, so that
`runConsoleUntilInterrupted` does not return before an interruption. -/
def StoppedInterrupted (s : ConsoleProcess) : Prop :=
  ∀ d, ∀ th ∈ (s.terminal d).thread, th.Stopped →
    (s.terminal d).interrupted = true

/-- `runConsoleUntilInterrupted` finds no stopped thread of its domain when it
clears the flag. -/
def ClearsRunning (s : ConsoleProcess) (a : ConsoleProcessAction) : Prop :=
  a = .caller → ∀ d, s.caller = .clearFlag d →
    ∀ th ∈ (s.terminal d).thread, ¬th.Stopped

theorem stoppedInterrupted_step
    (hs : s.StoppedInterrupted) (hstep : s.step a = some t) :
    t.StoppedInterrupted ↔ s.ClearsRunning a := by
  constructor
  · rintro ht rfl d hcaller th hth hstopped
    have hclear : t = { s.setInterrupted d false with caller := .setHandler d } := by
      rcases step_eq_processStep hstep with
        ⟨_, _, ha, _⟩ | ⟨_, ha, _⟩ | ⟨-, hcallerStep⟩
      · cases ha
      · cases ha
      · simp only [processStep, callerStep, hcaller, Option.some.injEq] at hcallerStep
        exact hcallerStep.symm
    have hterminal : t.terminal d = { s.terminal d with interrupted := false } := by
      rw [hclear]
      exact terminal_setTerminal_self _
    have hint := ht d th (by rw [hterminal]; exact hth) hstopped
    rw [hterminal] at hint
    cases hint
  · intro hclears d th hth hstopped
    have hsd := hs d
    generalize hu : t.terminal d = u at hth ⊢
    have hmove := step_terminal hstep d
    rw [hu] at hmove
    cases hmove with
    | same _ h =>
        rw [h] at hth ⊢
        exact hsd th hth hstopped
    | thread h =>
        obtain ⟨hint, th₀, th₁, hth₀, hth₁, himp⟩ := Terminal.threadStep_stopped h
        obtain rfl : th₁ = th := Option.some.inj (hth₁.symm.trans hth)
        rw [hint]
        rcases himp hstopped with h₀ | h₀
        · exact hsd th₀ hth₀ h₀
        · exact h₀
    | callWrite data h =>
        obtain ⟨hthread, hint⟩ := Terminal.writerStep_thread h
        rw [hthread] at hth
        rw [hint]
        exact hsd th hth hstopped
    | writer h =>
        obtain ⟨hthread, hint⟩ := Terminal.writerStep_thread h
        rw [hthread] at hth
        rw [hint]
        exact hsd th hth hstopped
    | start join _ h =>
        rw [h, Terminal.startConsoleThread] at hth ⊢
        split at hth
        · obtain rfl := Option.some.inj hth
          rcases hstopped with hpc | hpc <;> cases hpc
        · exact hsd th hth hstopped
    | join _ h =>
        rw [(Terminal.join_eq_some h).1] at hth
        cases hth
    | clear hcaller h =>
        rw [h] at hth
        exact absurd hstopped (hclears rfl d hcaller th hth)
    | interrupt h => rw [h]

theorem Initial.stoppedInterrupted (h : s.Initial) : s.StoppedInterrupted := by
  intro d th hth
  rw [h.thread d] at hth
  cases hth

/-- A call of `runConsoleUntilInterrupted` waits for an interruption, and no
thread gives up without one, exactly in the runs in which no call clears the
flag over a thread that an earlier SIGINT has stopped and nobody has joined. -/
theorem stops_only_interrupted_iff
    (hinit : s.Initial) (as : List ConsoleProcessAction) :
    Throughout step s as StoppedInterrupted ↔ EachStep step s as ClearsRunning := by
  have hexact : ∀ (u : ConsoleProcess) (a : ConsoleProcessAction)
      (v : ConsoleProcess), True → u.StoppedInterrupted → u.step a = some v →
      (v.StoppedInterrupted ↔ u.ClearsRunning a) :=
    fun _ _ _ _ hu hv => stoppedInterrupted_step hu hv
  exact throughout_iff_eachStep (fun _ _ _ _ _ => trivial) hexact trivial
    hinit.stoppedInterrupted as

end ConsoleProcess

/-! ## How soon a thread stops -/

/-- The accesses of `getchar` that are left, the look at the position included. -/
def GetcharPc.distance : GetcharPc → ℕ
  | .idle => 0
  | .checkPos => 8
  | .resetPos => 7
  | .readRdpos => 6
  | .readWrpos _ => 5
  | .readIndex => 4
  | .readByte _ => 3
  | .readNext _ => 2
  | .storePos _ _ => 1

/-- The steps of the thread that are left once the flag is set. -/
def Terminal.distance (t : Terminal) : ℕ :=
  match t.thread with
  | none => 0
  | some th =>
      match th.pc with
      | .test => 2
      | .poll => t.console.reader.distance + 2
      | .finish => 1
      | .ended => 0

theorem Terminal.distance_le (t : Terminal) : t.distance ≤ 10 := by
  have hreader : ∀ pc : GetcharPc, pc.distance ≤ 8 := by
    intro pc
    cases pc <;> simp [GetcharPc.distance]
  have hle := hreader t.console.reader
  unfold Terminal.distance
  (repeat' split) <;> omega

theorem Console.distance_readerStep {s t : Console} (h : s.readerStep = some t) :
    t.reader.distance < s.reader.distance := by
  unfold Console.readerStep at h
  (repeat' split at h) <;> cases h <;> simp [GetcharPc.distance, *]

theorem Console.exists_readerStep {s : Console} (h : s.reader ≠ .idle) :
    ∃ t, s.readerStep = some t := by
  unfold Console.readerStep
  cases hpc : s.reader with
  | idle => exact absurd hpc h
  | checkPos | readWrpos =>
      simp only
      split <;> exact ⟨_, rfl⟩
  | resetPos | readRdpos | readIndex | readByte | readNext | storePos =>
      exact ⟨_, rfl⟩

namespace Terminal

variable {t t' : Terminal}

/-- A thread is never held up. -/
theorem exists_threadStep {th : ConsoleThread} (ht : t.ReaderOk)
    (hthread : t.thread = some th) (hpc : th.pc ≠ .ended) :
    ∃ t', t.threadStep = some t' := by
  have hreader : t.console.reader = .idle ↔ th.pc ≠ .poll := by
    simpa [ReaderOk, hthread] using ht
  unfold threadStep
  cases hpc' : th.pc with
  | test =>
      have hidle : t.console.reader = .idle := hreader.mpr (by simp [hpc'])
      simp only [hthread, hpc', Console.step, hidle]
      split <;> exact ⟨_, rfl⟩
  | poll =>
      have hbusy : t.console.reader ≠ .idle := fun h => hreader.mp h hpc'
      obtain ⟨console, hstep⟩ := Console.exists_readerStep hbusy
      simp only [hthread, hpc', Console.step, hstep]
      exact ⟨_, rfl⟩
  | finish =>
      simp only [hthread, hpc']
      exact ⟨_, rfl⟩
  | ended => exact absurd hpc' hpc

theorem distance_threadStep (hint : t.interrupted = true)
    (h : t.threadStep = some t') : t'.distance < t.distance := by
  unfold threadStep at h
  cases hthread : t.thread with
  | none => simp [hthread] at h
  | some th =>
      simp only [hthread] at h
      cases hpc : th.pc with
      | test =>
          simp only [hpc, hint, if_true, Option.some.injEq] at h
          subst h
          simp [distance, hthread, hpc]
      | poll =>
          simp only [hpc] at h
          obtain ⟨console, hstep, rfl⟩ := Option.map_eq_some_iff.mp h
          have hlt := Console.distance_readerStep hstep
          have hdistance : t.distance = t.console.reader.distance + 2 := by
            simp [distance, hthread, hpc]
          rw [hdistance]
          cases hreader : console.reader with
          | idle =>
              rw [hreader] at hlt
              simp only [distance, ConsoleThread.receive]
              omega
          | _ =>
              rw [hreader] at hlt
              simp only [distance, hpc, hreader]
              omega
      | finish =>
          simp only [hpc, Option.some.injEq] at h
          subst h
          simp [distance, hthread, hpc]
      | ended => simp [hpc] at h

theorem distance_writerStep {a : ConsoleAction}
    (ha : a = .writer ∨ ∃ data, a = .callWrite data)
    (h : t.writerStep a = some t') : t'.distance = t.distance := by
  obtain ⟨console, hstep, rfl⟩ := Option.map_eq_some_iff.mp h
  simp [distance, (Console.step_writer_reader ha hstep).1]

theorem distance_pos {th : ConsoleThread} (hthread : t.thread = some th)
    (hpc : th.pc ≠ .ended) : 0 < t.distance := by
  unfold distance
  rw [hthread]
  cases hpc' : th.pc with
  | ended => exact absurd hpc' hpc
  | _ => simp [hpc']

end Terminal

namespace ConsoleProcess

variable {s t : ConsoleProcess} {a : ConsoleProcessAction} {d : DomainIndex}

/-- What a call of `runConsoleUntilInterrupted` has done on its way. -/
structure CallerOk (s : ConsoleProcess) : Prop where
  handler : ∀ d, s.caller = .startThread d true ∨ s.caller = .join d →
    s.handlerInstalled = true
  alive : s.handlerInstalled = true → s.killed = false
  thread : ∀ d, s.caller = .join d → (s.terminal d).thread ≠ none

theorem Initial.callerOk (h : s.Initial) : s.CallerOk where
  handler := by simp [h.caller]
  alive := fun _ => h.killed
  thread := by simp [h.caller]

/-- A step that leaves the caller where it is takes no thread from its slot. -/
theorem thread_ne_none_of_step (hstep : s.step a = some t) (ha : a ≠ .caller)
    (hs : (s.terminal d).thread ≠ none) : (t.terminal d).thread ≠ none := by
  generalize hu : t.terminal d = u
  have hmove := step_terminal hstep d
  rw [hu] at hmove
  cases hmove with
  | same _ h | interrupt h =>
      rw [h]
      exact hs
  | thread h =>
      obtain ⟨-, _, th, -, hth, -⟩ := Terminal.threadStep_stopped h
      rw [hth]
      exact Option.some_ne_none th
  | callWrite data h | writer h =>
      rw [(Terminal.writerStep_thread h).1]
      exact hs
  | start | join | clear => exact absurd rfl ha

/-- Steps of others than the caller. -/
theorem step_caller_of_ne (hstep : s.step a = some t) (ha : a ≠ .caller) :
    (t.caller = s.caller ∨ s.caller = .idle ∧
        ∃ d, t.caller = .startThread d false ∨ t.caller = .clearFlag d) ∧
      t.handlerInstalled = s.handlerInstalled ∧
      (t.killed = s.killed ∨ s.handlerInstalled = false) := by
  rcases step_eq_processStep hstep with
    ⟨d, data, rfl, hmap⟩ | ⟨d, rfl, hmap⟩ | ⟨-, hprocess⟩
  · obtain ⟨u, -, rfl⟩ := Option.map_eq_some_iff.mp hmap
    exact ⟨.inl rfl, rfl, .inl rfl⟩
  · obtain ⟨u, -, rfl⟩ := Option.map_eq_some_iff.mp hmap
    exact ⟨.inl rfl, rfl, .inl rfl⟩
  · cases a with
    | caller => exact absurd rfl ha
    | callWrite | writer => cases hprocess
    | startConsoleThread d =>
        simp only [processStep] at hprocess
        split at hprocess <;> cases hprocess
        next hidle => exact ⟨.inr ⟨hidle, d, .inl rfl⟩, rfl, .inl rfl⟩
    | runConsoleUntilInterrupted d =>
        simp only [processStep] at hprocess
        split at hprocess <;> cases hprocess
        next hidle => exact ⟨.inr ⟨hidle, d, .inr rfl⟩, rfl, .inl rfl⟩
    | thread d =>
        obtain ⟨u, -, rfl⟩ := Option.map_eq_some_iff.mp hprocess
        exact ⟨.inl rfl, rfl, .inl rfl⟩
    | sigint =>
        simp only [processStep] at hprocess
        split at hprocess
        · split at hprocess <;> cases hprocess
          exact ⟨.inl rfl, rfl, .inl rfl⟩
        next hinstalled =>
          cases hprocess
          exact ⟨.inl rfl, rfl, .inr (Bool.eq_false_of_not_eq_true hinstalled)⟩
    | handler =>
        simp only [processStep] at hprocess
        split at hprocess <;> cases hprocess
        exact ⟨.inl rfl, rfl, .inl rfl⟩

theorem callerOk_step (hs : s.CallerOk) (hstep : s.step a = some t) :
    t.CallerOk := by
  by_cases ha : a = .caller
  · subst ha
    rcases step_eq_processStep hstep with
      ⟨_, _, ha, _⟩ | ⟨_, ha, _⟩ | ⟨hkilled, hprocess⟩
    · cases ha
    · cases ha
    simp only [processStep, callerStep] at hprocess
    cases hcaller : s.caller with
    | idle => simp [hcaller] at hprocess
    | clearFlag d =>
        simp only [hcaller, Option.some.injEq] at hprocess
        subst hprocess
        exact ⟨by simp, fun _ => hkilled, by simp⟩
    | setHandler d =>
        simp only [hcaller, Option.some.injEq] at hprocess
        subst hprocess
        exact ⟨fun _ _ => rfl, fun _ => hkilled, by simp⟩
    | startThread d join =>
        simp only [hcaller, Option.some.injEq] at hprocess
        subst hprocess
        cases join with
        | false => exact ⟨by simp, fun _ => hkilled, by simp⟩
        | true =>
            refine ⟨fun _ _ => hs.handler d (.inl hcaller), fun _ => hkilled, ?_⟩
            rintro d' hd'
            obtain rfl : d = d' := CallerPc.join.inj hd'
            change (Function.update s.terminal d _ d).thread ≠ none
            rw [Function.update_self, Terminal.startConsoleThread]
            split
            · exact Option.some_ne_none _
            next hthread => simp [hthread]
    | join d =>
        simp only [hcaller] at hprocess
        obtain ⟨u, -, rfl⟩ := Option.map_eq_some_iff.mp hprocess
        exact ⟨by simp, fun _ => hkilled, by simp⟩
  · obtain ⟨hcaller, hinstalled, hkilled⟩ := step_caller_of_ne hstep ha
    have halive : t.handlerInstalled = true → t.killed = false := by
      intro h
      rw [hinstalled] at h
      rcases hkilled with hsame | hnot
      · rw [hsame]
        exact hs.alive h
      · rw [hnot] at h
        cases h
    rcases hcaller with hsame | ⟨-, d, hd | hd⟩
    · refine ⟨?_, halive, ?_⟩
      · rw [hsame, hinstalled]
        exact hs.handler
      · intro d hd
        rw [hsame] at hd
        exact thread_ne_none_of_step hstep ha (hs.thread d hd)
    · exact ⟨by simp [hd], halive, by simp [hd]⟩
    · exact ⟨by simp [hd], halive, by simp [hd]⟩

/-- A call waits for the thread of its domain, whose flag is set. -/
structure Joining (d : DomainIndex) (s : ConsoleProcess) : Prop where
  inv : ∃ initial : DomainIndex → List UInt8,
    ∀ d, TerminalInv (initial d) (s.terminal d)
  callerOk : s.CallerOk
  caller : s.caller = .join d
  interrupted : (s.terminal d).interrupted = true

/-- A call is over with the next step of the caller. -/
def CanReturn (s : ConsoleProcess) : Prop :=
  ∃ t, s.step .caller = some t ∧ t.caller = .idle

theorem Joining.canReturn (hs : s.Joining d) {th : ConsoleThread}
    (hthread : (s.terminal d).thread = some th) (hended : th.pc = .ended) :
    s.CanReturn := by
  have hkilled := hs.callerOk.alive (hs.callerOk.handler d (.inr hs.caller))
  obtain ⟨u, hjoin⟩ : ∃ u, (s.terminal d).join = some u := by
    simp only [Terminal.join, hthread, hended, if_true]
    exact ⟨_, rfl⟩
  refine ⟨{ s.setTerminal d u with caller := .idle }, ?_, rfl⟩
  simp [step, hkilled, processStep, callerStep, hs.caller, hjoin]

/-- Until the thread has ended, it can go on, and each of its steps brings the
end nearer. -/
theorem Joining.step (hs : s.Joining d) (hnot : ¬s.CanReturn) :
    (∃ t, s.step (.thread d) = some t) ∧ 0 < (s.terminal d).distance ∧
      ∀ a t, s.step a = some t → t.Joining d ∧
        (t.terminal d).distance + (if a = .thread d then 1 else 0) ≤
          (s.terminal d).distance := by
  obtain ⟨th, hthread⟩ :=
    Option.ne_none_iff_exists'.mp (hs.callerOk.thread d hs.caller)
  have hpc : th.pc ≠ .ended := fun h => hnot (hs.canReturn hthread h)
  have hkilled := hs.callerOk.alive (hs.callerOk.handler d (.inr hs.caller))
  obtain ⟨initial, hinv⟩ := hs.inv
  obtain ⟨u, hu⟩ := Terminal.exists_threadStep (hinv d).reader hthread hpc
  refine ⟨⟨s.setTerminal d u, ?_⟩, Terminal.distance_pos hthread hpc, ?_⟩
  · simp [ConsoleProcess.step, hkilled, processStep, hu]
  · intro a t hstep
    have ha : a ≠ .caller := by
      rintro rfl
      have hjoin : (s.terminal d).join = none := by
        simp [Terminal.join, hthread, hpc]
      simp [ConsoleProcess.step, hkilled, processStep, callerStep, hs.caller,
        hjoin] at hstep
    have hcaller : t.caller = .join d := by
      rcases (step_caller_of_ne hstep ha).1 with hsame | ⟨hidle, -⟩
      · rw [hsame]
        exact hs.caller
      · rw [hs.caller] at hidle
        cases hidle
    have hterminal : (t.terminal d).interrupted = true ∧
        (t.terminal d).distance + (if a = .thread d then 1 else 0) ≤
          (s.terminal d).distance := by
      generalize ht : t.terminal d = u'
      have hmove := step_terminal hstep d
      rw [ht] at hmove
      cases hmove with
      | same hne h =>
          rw [h, if_neg hne]
          exact ⟨hs.interrupted, le_refl _⟩
      | thread h =>
          have hlt := Terminal.distance_threadStep hs.interrupted h
          refine ⟨(Terminal.threadStep_stopped h).1.trans hs.interrupted, ?_⟩
          rw [if_pos rfl]
          exact hlt
      | callWrite data h =>
          refine ⟨(Terminal.writerStep_thread h).2.trans hs.interrupted, ?_⟩
          rw [Terminal.distance_writerStep (.inr ⟨data, rfl⟩) h, if_neg (by simp)]
          exact le_refl _
      | writer h =>
          refine ⟨(Terminal.writerStep_thread h).2.trans hs.interrupted, ?_⟩
          rw [Terminal.distance_writerStep (.inl rfl) h, if_neg (by simp)]
          exact le_refl _
      | interrupt h =>
          rw [h, if_neg (by simp)]
          exact ⟨rfl, le_refl _⟩
      | start | join | clear => exact absurd rfl ha
    exact ⟨⟨⟨initial, terminalInv_step hinv hstep⟩, callerOk_step hs.callerOk hstep,
      hcaller, hterminal.1⟩, hterminal.2⟩

theorem joining_of_run
    {s₀ : ConsoleProcess} {as : List ConsoleProcessAction} (hinit : s₀.Initial)
    (hrun : run step s₀ as = some s) (hcaller : s.caller = .join d)
    (hint : (s.terminal d).interrupted = true) : s.Joining d where
  inv := ⟨_, terminalInv_run hinit hrun⟩
  callerOk := run_preserves (fun _ _ _ hs h => callerOk_step hs h) hinit.callerOk hrun
  caller := hcaller
  interrupted := hint

/-- Once the flag is set, a call of `runConsoleUntilInterrupted` returns: its
thread is never held up, and whatever the others do meanwhile, ten steps of it
are enough. -/
theorem interrupted_call_returns
    {s₀ : ConsoleProcess} {as : List ConsoleProcessAction} (hinit : s₀.Initial)
    (hrun : run step s₀ as = some s) (hcaller : s.caller = .join d)
    (hint : (s.terminal d).interrupted = true) :
    (s.CanReturn ∨ ∃ t, s.step (.thread d) = some t) ∧
      ∀ bs t, run step s bs = some t → 10 ≤ bs.countP (· = .thread d) →
        ∃ before, before <+: bs ∧
          ∃ u, run step s before = some u ∧ u.CanReturn := by
  have hs := joining_of_run hinit hrun hcaller hint
  constructor
  · by_cases hreturn : s.CanReturn
    · exact .inl hreturn
    · exact .inr (hs.step hreturn).1
  · intro bs t hbs hcount
    have hdistance : ∀ (u : ConsoleProcess) (a : ConsoleProcessAction)
        (v : ConsoleProcess), u.Joining d → ¬u.CanReturn → u.step a = some v →
        v.Joining d ∧
          (v.terminal d).distance + (if decide (a = .thread d) then 1 else 0) ≤
            (u.terminal d).distance := by
      intro u a v hu hnot hstep
      simpa using (hu.step hnot).2.2 a v hstep
    have hpos : ∀ u : ConsoleProcess, u.Joining d → ¬u.CanReturn →
        0 < (u.terminal d).distance :=
      fun u hu hnot => (hu.step hnot).2.1
    exact exists_prefix_of_measure hdistance hpos hs hbs
      ((Terminal.distance_le _).trans hcount)

/-! ## Runs -/

def start : ConsoleProcess where
  terminal := fun _ =>
    { console := .start .zero, interrupted := false, thread := none, joined := [] }
  caller := .idle
  handlerInstalled := false
  toStop := []
  killed := false

theorem start_initial : start.Initial :=
  ⟨fun _ => Console.start_initial, fun _ => rfl, fun _ => rfl, rfl, rfl, rfl⟩

/-- The call of `runConsoleUntilInterrupted` up to its `join`. -/
def consoleCall (d : DomainIndex) : List ConsoleProcessAction :=
  .runConsoleUntilInterrupted d :: List.replicate 3 .caller

/-- SIGINT and its handler. -/
def interruption : List ConsoleProcessAction :=
  .sigint :: List.replicate 3 .handler

/-- The payload writes a line, which the console prints before it is
interrupted. -/
def oneLineSchedule : List ConsoleProcessAction :=
  .callWrite .cpu1 [72, 105, 10] :: List.replicate 17 (.writer .cpu1) ++
    consoleCall .cpu1 ++ List.replicate 24 (.thread .cpu1) ++ interruption ++
    List.replicate 2 (.thread .cpu1) ++ [.caller]

theorem console_prints_stream_oneLine :
    ∃ t, run step start oneLineSchedule = some t ∧ t.caller = .idle ∧
      (t.terminal .cpu1).joined.map (fun th => th.printer.printed) = [[[72, 105]]] ∧
      (t.terminal .cpu1).polls.reduceOption ++
          (t.terminal .cpu1).console.ipc.unread =
        [] ++ (t.terminal .cpu1).console.accepted := by
  have htest : (run step start oneLineSchedule).any (fun t =>
      decide (t.caller = .idle) &&
        decide ((t.terminal .cpu1).joined.map (fun th => th.printer.printed) =
          [[[72, 105]]])) = true := by
    decide +kernel
  obtain ⟨t, hrun, ht⟩ := (Option.any_eq_true _ _).mp htest
  simp only [Bool.and_eq_true, decide_eq_true_eq] at ht
  exact ⟨t, hrun, ht.1, ht.2, (console_prints_stream start_initial hrun .cpu1).1⟩

/-- A thread of its own for the first domain is stopped by the SIGINT that was
meant for the second one. -/
def leftOverSchedule : List ConsoleProcessAction :=
  [.startConsoleThread .cpu1, .caller] ++ consoleCall .cpu2 ++ interruption ++
    [.thread .cpu1, .thread .cpu1, .thread .cpu2, .thread .cpu2, .caller]

/-- The next call for the first domain would return at once. -/
theorem stops_only_interrupted_iff_leftOver :
    ¬EachStep step start (leftOverSchedule ++ consoleCall .cpu1) ClearsRunning := by
  intro heach
  have hright := (stops_only_interrupted_iff start_initial _).mpr heach
  have htest : (run step start (leftOverSchedule ++ consoleCall .cpu1)).any (fun t =>
      (t.terminal .cpu1).thread.any (fun th => decide th.Stopped) &&
        !(t.terminal .cpu1).interrupted) = true := by
    decide +kernel
  obtain ⟨t, hrun, ht⟩ := (Option.any_eq_true _ _).mp htest
  rw [Bool.and_eq_true, Option.any_eq_true, Bool.not_eq_true'] at ht
  obtain ⟨⟨th, hth, hstopped⟩, hint⟩ := ht
  have hset := hright _ t (List.prefix_refl _) hrun .cpu1 th hth
    (of_decide_eq_true hstopped)
  rw [hint] at hset
  cases hset

theorem interrupted_call_returns_polling :
    ∃ s, run step start (consoleCall .cpu1 ++ .thread .cpu1 :: interruption) = some s ∧
      ∀ bs t, run step s bs = some t → 10 ≤ bs.countP (· = .thread .cpu1) →
        ∃ before, before <+: bs ∧
          ∃ u, run step s before = some u ∧ u.CanReturn := by
  have htest :
      (run step start (consoleCall .cpu1 ++ .thread .cpu1 :: interruption)).any
        (fun s => decide (s.caller = .join .cpu1) &&
          (s.terminal .cpu1).interrupted) = true := by
    decide +kernel
  obtain ⟨s, hrun, hs⟩ := (Option.any_eq_true _ _).mp htest
  simp only [Bool.and_eq_true, decide_eq_true_eq] at hs
  exact ⟨s, hrun,
    (interrupted_call_returns start_initial hrun hs.1 hs.2).2⟩

end ConsoleProcess

end Bmboot
