import Bmboot.Stdout.Fifo

/-!
# Flushing the standard output ring

`Domain::startPayloadAt` empties the ring by storing the write position to the
read position, which `getchar` reads and writes as well, possibly on another
thread.  The start of a payload joins the interleaved programs of the ring as a
third party.
-/

namespace Bmboot

open CircularBuffer StepSystem

/-! ## The three parties -/

/-- Where the domain stands: an earlier payload runs, `startPayloadAt` has found
the monitor ready and accesses the ring, it goes on to issue its command, or the
new payload runs. -/
inductive LaunchPc
  | payloadRuns
  | readWrpos
  | storeRdpos (wrpos : ℕ)
  | issueCommand
  | issued
  deriving DecidableEq

def LaunchPc.flushed : LaunchPc → Bool
  | .payloadRuns | .readWrpos | .storeRdpos _ => false
  | .issueCommand | .issued => true

/-- A payload can write. -/
def LaunchPc.payload : LaunchPc → Bool
  | .payloadRuns | .issued => true
  | .readWrpos | .storeRdpos _ | .issueCommand => false

/-- The console and the start of a payload.  The other fields are history: that
the call of `getchar` in progress has begun after the flush, that the one in
progress at the flush had read its byte by then, and the bytes returned since by
the call that was in progress and by later calls. -/
structure Launch where
  console : Console
  pc : LaunchPc
  fresh : Bool
  readBefore : Bool
  early : List UInt8
  late : List UInt8

inductive LaunchAction
  | console (a : ConsoleAction)
  | terminate
  | launch

/-- The actions of the monitor on behalf of a payload. -/
def ConsoleAction.ofWriter : ConsoleAction → Bool
  | .callWrite _ | .writer => true
  | .callGetchar | .reader => false

/-- The byte of the call in progress has been read. -/
def GetcharPc.hasByte : GetcharPc → Bool
  | .readNext _ | .storePos _ _ => true
  | _ => false

namespace Launch

/-- The console has gone to `c` by the action `a`. -/
def record (s : Launch) (a : ConsoleAction) (c : Console) : Launch :=
  let bytes := c.returned.drop s.console.returned.length
  { s with
    console := c
    fresh :=
      match a with
      | .callGetchar => s.pc.flushed
      | _ => s.fresh
    early := if s.pc.flushed && !s.fresh then s.early ++ bytes else s.early
    late := if s.fresh then s.late ++ bytes else s.late }

/-- The kill of the earlier payload abandons its call of `writeToStdout`.  The
history of the ring starts again. -/
def terminateStep (s : Launch) : Launch :=
  { s with
    console :=
      { s.console with writer := [], accepted := [], returned := [], calls := [] }
    pc := .readWrpos }

/-- The next access of `startPayloadAt`. -/
def launchStep (s : Launch) : Option Launch :=
  match s.pc with
  | .readWrpos =>
      some
        { s with pc := .storeRdpos s.console.ipc.executorToManager.stdoutWrpos }
  | .storeRdpos wrpos =>
      some
        { s with
          console :=
            { s.console with ipc := s.console.ipc.setStdoutRdpos wrpos }
          pc := .issueCommand
          readBefore := s.console.reader.hasByte }
  | .issueCommand => some { s with pc := .issued }
  | .payloadRuns | .issued => none

def step (s : Launch) : LaunchAction → Option Launch
  | .console a =>
      if a.ofWriter && !s.pc.payload then none
      else (s.console.step a).map (s.record a)
  | .terminate =>
      match s.pc with
      | .payloadRuns => some s.terminateStep
      | _ => none
  | .launch => s.launchStep

/-- An earlier payload, or none, with no call in progress. -/
structure Initial (s : Launch) : Prop where
  console : s.console.Initial
  pc : s.pc = .payloadRuns
  fresh : s.fresh = false
  early : s.early = []
  late : s.late = []

/-- The byte of the overlapping call, if it was read after the flush. -/
def lead (s : Launch) : List UInt8 := if s.readBefore then [] else s.early

/-- Since the flush, exactly the bytes accepted since the flush have been
returned, each once and in order, apart from those still unread: first the byte
of the call that overlaps the flush, if it was read after it, then those of the
later calls. -/
def NoReplay (s : Launch) : Prop :=
  s.pc.flushed = true →
    s.lead ++ s.late ++ s.console.ipc.unread = s.console.accepted

/-- The flush meets no call of `getchar` between its first access to the read
position and its last, unless the ring is empty already or the call is about to
store what the flush stores. -/
def Clear (s : Launch) : Prop :=
  s.console.ipc.managerToExecutor.stdoutRdpos =
      s.console.ipc.executorToManager.stdoutWrpos ∨
    match s.console.reader with
    | .idle | .checkPos | .readRdpos => True
    | .storePos _ rdpos =>
        (rdpos + 1) % stdoutBufSize =
          s.console.ipc.executorToManager.stdoutWrpos
    | _ => False

/-- The step is not a flush, or it is a clear one. -/
def FlushesClear (s : Launch) : LaunchAction → Prop
  | .launch => ∀ wrpos, s.pc = .storeRdpos wrpos → s.Clear
  | _ => True

end Launch

/-! ## Steps of the console -/

section Console

variable {s t : Console} {a : ConsoleAction}

/-- The monitor leaves the reader's side of the ring alone and does not look at
where the reader stands. -/
structure SameReader (s t : Console) (a : ConsoleAction) : Prop where
  reader : t.reader = s.reader
  returned : t.returned = s.returned
  outbox : t.ipc.managerToExecutor = s.ipc.managerToExecutor
  blind : ∀ pc, { s with reader := pc }.step a = some { t with reader := pc }

theorem sameReader_writerStep {f : WriteCall} {outer : List WriteCall}
    (hw : s.writer = f :: outer) (h : s.writerStep f outer = some t) :
    SameReader s t .writer := by
  have hblind : ∀ pc u, { s with reader := pc }.writerStep f outer = some u →
      { s with reader := pc }.step .writer = some u := by
    intro pc u hu
    simpa only [Console.step, hw] using hu
  unfold Console.writerStep at h hblind
  cases hpc : f.pc with
  | checkPos =>
      simp only [hpc] at h hblind
      split at h
      all_goals
        next hwr =>
          cases h
          refine ⟨rfl, rfl, rfl, fun pc => hblind pc _ ?_⟩
          simp only [hwr, if_true, if_false]
  | resetPos =>
      simp only [hpc] at h hblind
      cases h
      exact ⟨rfl, rfl, rfl, fun pc => hblind pc _ rfl⟩
  | loop =>
      cases hrest : f.rest with
      | nil =>
          simp only [hpc, hrest] at h hblind
          cases h
          exact ⟨rfl, rfl, rfl, fun pc => hblind pc _ rfl⟩
      | cons b rest =>
          simp only [hpc, hrest] at h hblind
          cases h
          exact ⟨rfl, rfl, rfl, fun pc => hblind pc _ rfl⟩
  | readRdpos wrposNew =>
      simp only [hpc] at h hblind
      split at h
      next hfull =>
        cases h
        refine ⟨rfl, rfl, rfl, fun pc => hblind pc _ ?_⟩
        simp only [hfull, if_true]
        rfl
      next hfull =>
        cases h
        refine ⟨rfl, rfl, rfl, fun pc => hblind pc _ ?_⟩
        simp only [hfull, if_false]
  | readIndex wrposNew =>
      simp only [hpc] at h hblind
      cases h
      exact ⟨rfl, rfl, rfl, fun pc => hblind pc _ rfl⟩
  | storeByte wrposNew index =>
      cases hrest : f.rest with
      | nil => simp [hpc, hrest] at h
      | cons b rest =>
          simp only [hpc, hrest] at h hblind
          cases h
          exact ⟨rfl, rfl, rfl, fun pc => hblind pc _ rfl⟩
  | storePos wrposNew =>
      cases hrest : f.rest with
      | nil => simp [hpc, hrest] at h
      | cons b rest =>
          simp only [hpc, hrest] at h hblind
          cases h
          exact ⟨rfl, rfl, rfl, fun pc => hblind pc _ rfl⟩

theorem sameReader_of_ofWriter
    (ha : a.ofWriter = true) (h : s.step a = some t) : SameReader s t a := by
  cases a with
  | callWrite data =>
      simp only [Console.step] at h
      split at h
      next hw =>
        cases h
        refine ⟨rfl, rfl, rfl, ?_⟩
        intro pc
        simp only [Console.step, hw]
      · cases h
  | writer =>
      simp only [Console.step] at h
      split at h
      · cases h
      next f outer hw => exact sameReader_writerStep hw h
  | callGetchar => cases ha
  | reader => cases ha

theorem returned_of_not_reader
    (ha : a ≠ .reader) (h : s.step a = some t) : t.returned = s.returned := by
  by_cases hwriter : a.ofWriter = true
  · exact (sameReader_of_ofWriter hwriter h).returned
  · cases a with
    | callGetchar =>
        simp only [Console.step] at h
        split at h
        · cases h
          rfl
        · cases h
    | reader => exact absurd rfl ha
    | callWrite data => exact absurd rfl hwriter
    | writer => exact absurd rfl hwriter

/-- The reader leaves the writer's side of the ring alone, and returns bytes at
most. -/
structure SameWriter (s t : Console) : Prop where
  writer : t.writer = s.writer
  accepted : t.accepted = s.accepted
  inbox : t.ipc.executorToManager = s.ipc.executorToManager
  returned : s.returned <+: t.returned

theorem sameWriter_readerStep (h : s.readerStep = some t) : SameWriter s t := by
  unfold Console.readerStep at h
  split at h
  · cases h
  · split at h
    all_goals
      cases h
      exact ⟨rfl, rfl, rfl, List.prefix_refl _⟩
  · cases h
    exact ⟨rfl, rfl, rfl, List.prefix_refl _⟩
  · cases h
    exact ⟨rfl, rfl, rfl, List.prefix_refl _⟩
  · split at h
    all_goals
      cases h
      exact ⟨rfl, rfl, rfl, List.prefix_refl _⟩
  · cases h
    exact ⟨rfl, rfl, rfl, List.prefix_refl _⟩
  · cases h
    exact ⟨rfl, rfl, rfl, List.prefix_refl _⟩
  · cases h
    exact ⟨rfl, rfl, rfl, List.prefix_refl _⟩
  · cases h
    exact ⟨rfl, rfl, rfl, List.prefix_append _ _⟩

theorem sameWriter_of_not_ofWriter
    (ha : a.ofWriter = false) (h : s.step a = some t) : SameWriter s t := by
  cases a with
  | callGetchar =>
      simp only [Console.step] at h
      split at h
      · cases h
        exact ⟨rfl, rfl, rfl, List.prefix_refl _⟩
      · cases h
  | reader => exact sameWriter_readerStep h
  | callWrite data => cases ha
  | writer => cases ha

/-- What leaves the ring and what enters it, over one step. -/
theorem Refines.flow (h : Refines s t) :
    ∃ bytes new, t.returned = s.returned ++ bytes ∧
      t.accepted = s.accepted ++ new ∧
      bytes ++ t.ipc.unread = s.ipc.unread ++ new := by
  rcases h with hsame | ⟨m, hm⟩
  · simp only [Console.channel, Channel.State.mk.injEq] at hsame
    obtain ⟨hqueue, haccepted, hreturned⟩ := hsame
    refine ⟨[], [], ?_, ?_, ?_⟩
    · rw [hreturned, List.append_nil]
    · rw [haccepted, List.append_nil]
    · rw [hqueue, List.append_nil, List.nil_append]
  · cases m with
    | push b =>
        rw [Channel.step] at hm
        split at hm
        · simp only [Console.channel, Option.some.injEq,
            Channel.State.mk.injEq] at hm
          obtain ⟨hqueue, haccepted, hreturned⟩ := hm
          refine ⟨[], [b], ?_, haccepted.symm, hqueue.symm⟩
          rw [hreturned, List.append_nil]
        · cases hm
    | pop =>
        simp only [Channel.step, Console.channel] at hm
        split at hm
        · cases hm
        next b queue hqueue =>
          simp only [Option.some.injEq, Channel.State.mk.injEq] at hm
          obtain ⟨hrest, haccepted, hreturned⟩ := hm
          refine ⟨[b], [], hreturned.symm, ?_, ?_⟩
          · rw [haccepted, List.append_nil]
          · rw [hqueue, hrest, List.append_nil]
            rfl

end Console

namespace Launch

variable {s t : Launch} {a : LaunchAction}

/-! ## Up to the flush -/

/-- Before the flush nothing has been recorded, and from the kill of the earlier
payload on nobody writes. -/
structure BeforeInv (s : Launch) : Prop where
  flushed : s.pc.flushed = false
  console : ConsoleInv s.console
  fresh : s.fresh = false
  early : s.early = []
  late : s.late = []
  quiet : s.pc ≠ .payloadRuns →
    s.console.writer = [] ∧ s.console.accepted = []
  wrpos : ∀ wrpos, s.pc = .storeRdpos wrpos →
    wrpos = s.console.ipc.executorToManager.stdoutWrpos

theorem Initial.before (h : s.Initial) : s.BeforeInv where
  flushed := by rw [h.pc]; rfl
  console := h.console.inv
  fresh := h.fresh
  early := h.early
  late := h.late
  quiet hpc := absurd h.pc hpc
  wrpos wrpos hpc := by
    rw [h.pc] at hpc
    cases hpc

theorem step_console_eq_some {b : ConsoleAction} :
    s.step (.console b) = some t ↔
      (b.ofWriter = true → s.pc.payload = true) ∧
        ∃ c, s.console.step b = some c ∧ t = s.record b c := by
  simp only [step]
  split
  next hrefused =>
    simp only [Bool.and_eq_true, Bool.not_eq_true'] at hrefused
    simp [hrefused.1, hrefused.2]
  next hallowed =>
    simp only [Bool.and_eq_true, Bool.not_eq_true', not_and,
      Bool.not_eq_false] at hallowed
    simp only [Option.map_eq_some_iff, eq_comm (a := t)]
    exact (and_iff_right hallowed).symm

section Before

variable (hinv : s.BeforeInv)
include hinv

theorem BeforeInv.record {b : ConsoleAction} {c : Console}
    (hallowed : b.ofWriter = true → s.pc.payload = true)
    (hc : s.console.step b = some c) : (s.record b c).BeforeInv where
  flushed := hinv.flushed
  console := (hinv.console.step hc).1
  fresh := by
    cases b with
    | callGetchar => exact hinv.flushed
    | _ => exact hinv.fresh
  early := by
    simp only [Launch.record, hinv.flushed, Bool.false_and]
    exact hinv.early
  late := by
    simp only [Launch.record, hinv.fresh]
    exact hinv.late
  quiet hpc := by
    have hpayload : s.pc.payload = false := by
      have hflushed := hinv.flushed
      have hne : s.pc ≠ .payloadRuns := hpc
      revert hflushed hne
      cases s.pc <;> simp [LaunchPc.flushed, LaunchPc.payload]
    have hreader : b.ofWriter = false := by
      by_contra hwriter
      rw [Bool.not_eq_false] at hwriter
      exact Bool.false_ne_true (hpayload.symm.trans (hallowed hwriter))
    have hsame := sameWriter_of_not_ofWriter hreader hc
    obtain ⟨hwriter, haccepted⟩ := hinv.quiet hpc
    exact ⟨hsame.writer.trans hwriter, hsame.accepted.trans haccepted⟩
  wrpos wrpos hpc := by
    have hreader : b.ofWriter = false := by
      by_contra hwriter
      rw [Bool.not_eq_false] at hwriter
      have hstored : s.pc = .storeRdpos wrpos := hpc
      have hpayload := hallowed hwriter
      rw [hstored] at hpayload
      cases hpayload
    have hsame := sameWriter_of_not_ofWriter hreader hc
    exact (hinv.wrpos wrpos hpc).trans
      (congrArg ExecutorToManager.stdoutWrpos hsame.inbox).symm

theorem BeforeInv.terminateStep : s.terminateStep.BeforeInv where
  flushed := rfl
  console :=
    { rdpos_lt := hinv.console.rdpos_lt
      wrpos_lt := hinv.console.wrpos_lt
      writer := .inl rfl
      reader := hinv.console.reader
      calls := nofun
      accepted_eq := rfl }
  fresh := hinv.fresh
  early := hinv.early
  late := hinv.late
  quiet _ := ⟨rfl, rfl⟩
  wrpos := nofun

end Before

/-- The state right after the flush. -/
def flush (s : Launch) (wrpos : ℕ) : Launch :=
  { s with
    console := { s.console with ipc := s.console.ipc.setStdoutRdpos wrpos }
    pc := .issueCommand
    readBefore := s.console.reader.hasByte }

/-- A step up to the flush is the flush or stays before it. -/
theorem BeforeInv.step (hinv : s.BeforeInv) (h : s.step a = some t) :
    t.BeforeInv ∨
      a = .launch ∧ ∃ wrpos, s.pc = .storeRdpos wrpos ∧ t = s.flush wrpos := by
  cases a with
  | console b =>
      obtain ⟨hallowed, c, hc, rfl⟩ := step_console_eq_some.mp h
      exact .inl (hinv.record hallowed hc)
  | terminate =>
      simp only [Launch.step] at h
      split at h
      · cases h
        exact .inl hinv.terminateStep
      · cases h
  | launch =>
      simp only [Launch.step, launchStep] at h
      split at h
      next hpc =>
        cases h
        have hquiet := hinv.quiet (by rw [hpc]; nofun)
        refine .inl ⟨rfl, hinv.console, hinv.fresh, hinv.early, hinv.late,
          fun _ => hquiet, ?_⟩
        intro wrpos hwrpos
        cases hwrpos
        rfl
      next wrpos hpc =>
        cases h
        exact .inr ⟨rfl, wrpos, hpc, rfl⟩
      next hpc =>
        have hflushed := hinv.flushed
        rw [hpc] at hflushed
        cases hflushed
      all_goals cases h

/-! ## Behind a clear flush -/

/-- The ring is a channel that was empty at the flush. -/
structure CalmInv (s : Launch) : Prop where
  flushed : s.pc.flushed = true
  console : ConsoleInv s.console
  late : s.fresh = false → s.late = []
  readBefore : s.readBefore = true →
    s.console.reader = .idle ∨ s.fresh = true
  returned : s.lead ++ s.late ++ s.console.ipc.unread = s.console.accepted

/-- As before, except that the call that overlaps the flush is about to store
the read position that the flush has stored. -/
structure PendingInv (s : Launch) (c : UInt8) (rdpos : ℕ) : Prop where
  flushed : s.pc.flushed = true
  reader : s.console.reader = .storePos c rdpos
  rdpos : (rdpos + 1) % stdoutBufSize =
    s.console.ipc.managerToExecutor.stdoutRdpos
  console : ConsoleInv { s.console with reader := .idle }
  fresh : s.fresh = false
  readBefore : s.readBefore = true
  late : s.late = []
  returned : s.console.ipc.unread = s.console.accepted

section Record

variable {b : ConsoleAction} {c : Console}

theorem fresh_record_of_flushed (hflushed : s.pc.flushed = true)
    (h : (s.record b c).fresh = false) :
    s.fresh = false ∧ b ≠ .callGetchar := by
  cases b with
  | callGetchar =>
      have hfresh : s.pc.flushed = false := h
      exact absurd (hflushed.symm.trans hfresh) (by decide)
  | callWrite data => exact ⟨h, nofun⟩
  | writer => exact ⟨h, nofun⟩
  | reader => exact ⟨h, nofun⟩

theorem not_step_reader_of_idle
    (hreader : s.console.reader = .idle) :
    s.console.step .reader ≠ some c := by
  simp [Console.step, Console.readerStep, hreader]

theorem CalmInv.record (hinv : s.CalmInv) (hc : s.console.step b = some c) :
    (s.record b c).CalmInv := by
  obtain ⟨hconsole, hrefines⟩ := hinv.console.step hc
  obtain ⟨bytes, new, hreturned, haccepted, hflow⟩ := hrefines.flow
  have hbytes : c.returned.drop s.console.returned.length = bytes := by
    rw [hreturned, List.drop_left]
  have hall : s.lead ++ s.late ++ (bytes ++ c.ipc.unread) = c.accepted := by
    rw [hflow, haccepted, ← hinv.returned, List.append_assoc _ _ new]
  refine ⟨hinv.flushed, hconsole, ?late, ?readBefore, ?returned⟩
  case late =>
    intro hfresh
    obtain ⟨hold, -⟩ := fresh_record_of_flushed hinv.flushed hfresh
    simp only [Launch.record, hold]
    exact hinv.late hold
  case readBefore =>
    intro hread
    by_cases hfresh : (s.record b c).fresh = true
    · exact .inr hfresh
    · rw [Bool.not_eq_true] at hfresh
      obtain ⟨hold, hcall⟩ := fresh_record_of_flushed hinv.flushed hfresh
      rcases hinv.readBefore hread with hidle | hnew
      · left
        cases hwriter : b.ofWriter with
        | true =>
            exact (sameReader_of_ofWriter hwriter hc).reader.trans hidle
        | false =>
            cases b with
            | callGetchar => exact absurd rfl hcall
            | reader => exact absurd hc (not_step_reader_of_idle hidle)
            | callWrite data => cases hwriter
            | writer => cases hwriter
      · exact absurd (hold.symm.trans hnew) (by decide)
  case returned =>
    cases hfresh : s.fresh with
    | true =>
        simp only [lead, Launch.record, hfresh, hbytes, Bool.not_true,
          Bool.and_false] at hall ⊢
        simpa using hall
    | false =>
        have hlate := hinv.late hfresh
        simp only [lead, Launch.record, hfresh, hbytes, hinv.flushed,
          Bool.not_false, Bool.and_true, hlate] at hall ⊢
        cases hread : s.readBefore with
        | false => simpa [hread] using hall
        | true =>
            -- the call in progress at the flush has ended
            have hidle : s.console.reader = .idle := by
              rcases hinv.readBefore hread with hidle | hnew
              · exact hidle
              · exact absurd (hfresh.symm.trans hnew) (by decide)
            have hreader : b ≠ .reader := by
              rintro rfl
              exact not_step_reader_of_idle hidle hc
            have hsame := returned_of_not_reader hreader hc
            have hnil : bytes = [] := by
              rw [← hbytes, hsame, List.drop_length]
            simpa [hread, hnil] using hall

/-- The overlapping call stores what the read position is already. -/
theorem PendingInv.record {b : ConsoleAction} {x : UInt8} {rdpos : ℕ}
    (hinv : s.PendingInv x rdpos) (hc : s.console.step b = some c) :
    (s.record b c).PendingInv x rdpos ∨ (s.record b c).CalmInv := by
  cases hwriter : b.ofWriter with
  | true =>
      have hsame := sameReader_of_ofWriter hwriter hc
      obtain ⟨hconsole, hrefines⟩ := hinv.console.step (hsame.blind .idle)
      obtain ⟨bytes, new, hreturned, haccepted, hflow⟩ := hrefines.flow
      have hfresh : (s.record b c).fresh = false := by
        cases b with
        | callGetchar => cases hwriter
        | reader => cases hwriter
        | callWrite data => exact hinv.fresh
        | writer => exact hinv.fresh
      have hnil : bytes = [] := by
        have hlength := congrArg List.length (hreturned.symm.trans hsame.returned)
        simpa using hlength
      refine .inl ⟨hinv.flushed, hsame.reader.trans hinv.reader, ?_, hconsole,
        hfresh, hinv.readBefore, ?_, ?_⟩
      · exact hinv.rdpos.trans
          (congrArg ManagerToExecutor.stdoutRdpos hsame.outbox).symm
      · simp only [Launch.record, hinv.fresh]
        exact hinv.late
      · rw [hnil, List.nil_append] at hflow
        exact hflow.trans ((congrArg (· ++ new) hinv.returned).trans
          haccepted.symm)
  | false =>
      cases b with
      | callWrite data => cases hwriter
      | writer => cases hwriter
      | callGetchar => simp [Console.step, hinv.reader] at hc
      | reader =>
          simp only [Console.step, Console.readerStep, hinv.reader,
            hinv.rdpos, Option.some.injEq] at hc
          subst hc
          refine .inr ⟨hinv.flushed, ?_, ?_, fun _ => .inl rfl, ?_⟩
          · exact
              { rdpos_lt := hinv.console.rdpos_lt
                wrpos_lt := hinv.console.wrpos_lt
                writer := hinv.console.writer
                reader := trivial
                calls := hinv.console.calls
                accepted_eq := hinv.console.accepted_eq }
          · intro _
            simp only [Launch.record, hinv.fresh]
            exact hinv.late
          · simp only [lead, Launch.record, hinv.fresh, hinv.readBefore,
              hinv.late]
            exact hinv.returned

end Record

/-- Behind a clear flush. -/
def AfterInv (s : Launch) : Prop :=
  s.CalmInv ∨ ∃ c rdpos, s.PendingInv c rdpos

theorem AfterInv.flushed (hinv : s.AfterInv) : s.pc.flushed = true := by
  rcases hinv with hcalm | ⟨c, rdpos, hpending⟩
  · exact hcalm.flushed
  · exact hpending.flushed

theorem AfterInv.noReplay (hinv : s.AfterInv) : s.NoReplay := by
  intro _
  rcases hinv with hcalm | ⟨c, rdpos, hpending⟩
  · exact hcalm.returned
  · simp only [lead, hpending.readBefore, hpending.late]
    exact hpending.returned

theorem AfterInv.step (hinv : s.AfterInv) (h : s.step a = some t) :
    t.AfterInv := by
  cases a with
  | console b =>
      obtain ⟨-, c, hc, rfl⟩ := step_console_eq_some.mp h
      rcases hinv with hcalm | ⟨x, rdpos, hpending⟩
      · exact .inl (hcalm.record hc)
      · rcases hpending.record hc with hstill | hcalm
        · exact .inr ⟨x, rdpos, hstill⟩
        · exact .inl hcalm
  | terminate =>
      simp only [Launch.step] at h
      split at h
      next hpc =>
        have hflushed := hinv.flushed
        rw [hpc] at hflushed
        cases hflushed
      · cases h
  | launch =>
      have hflushed := hinv.flushed
      simp only [Launch.step, launchStep] at h
      split at h
      next hpc =>
        rw [hpc] at hflushed
        cases hflushed
      next hpc =>
        rw [hpc] at hflushed
        cases hflushed
      next hpc =>
        cases h
        rcases hinv with hcalm | ⟨c, rdpos, hpending⟩
        · exact .inl { hcalm with flushed := rfl }
        · exact .inr ⟨c, rdpos, { hpending with flushed := rfl }⟩
      all_goals cases h

theorem unread_eq_nil {ipc : IpcBlock}
    (hwr : ipc.executorToManager.stdoutWrpos < stdoutBufSize)
    (h : ipc.managerToExecutor.stdoutRdpos =
      ipc.executorToManager.stdoutWrpos) : ipc.unread = [] := by
  rw [← List.length_eq_zero_iff, IpcBlock.unread, length_segment, h,
    count_eq hwr hwr, if_pos (Nat.le_refl _), Nat.sub_self]

section Flush

variable {wrpos : ℕ} (hinv : s.BeforeInv) (hpc : s.pc = .storeRdpos wrpos)
include hinv

theorem BeforeInv.lead_flush (wrpos : ℕ) : (s.flush wrpos).lead = [] := by
  simp [lead, flush, hinv.early]

include hpc

theorem BeforeInv.unread_flush : (s.flush wrpos).console.ipc.unread = [] :=
  unread_eq_nil hinv.console.wrpos_lt (hinv.wrpos wrpos hpc)

/-- A flush at which the reader stands where the positions do not matter to it
empties the channel. -/
theorem BeforeInv.calmInv_flush
    (hreader : s.console.reader.Ok (s.flush wrpos).console.ipc)
    (hbyte : s.console.reader.hasByte = false) :
    (s.flush wrpos).CalmInv := by
  obtain ⟨hwriter, haccepted⟩ := hinv.quiet (by rw [hpc]; nofun)
  refine ⟨rfl, ?console, fun _ => hinv.late, ?readBefore, ?returned⟩
  case console =>
    exact
      { rdpos_lt := by
          rw [hinv.wrpos wrpos hpc]
          exact hinv.console.wrpos_lt
        wrpos_lt := hinv.console.wrpos_lt
        writer := .inl hwriter
        reader := hreader
        calls := hinv.console.calls
        accepted_eq := hinv.console.accepted_eq }
  case readBefore =>
    intro hread
    exact absurd (hbyte.symm.trans hread) (by decide)
  case returned =>
    rw [hinv.lead_flush wrpos, hinv.unread_flush hpc]
    simp [flush, hinv.late, haccepted]

theorem BeforeInv.pendingInv_flush {c : UInt8} {rdpos : ℕ}
    (hreader : s.console.reader = .storePos c rdpos)
    (hrdpos : (rdpos + 1) % stdoutBufSize =
      s.console.ipc.executorToManager.stdoutWrpos) :
    (s.flush wrpos).PendingInv c rdpos := by
  obtain ⟨hwriter, haccepted⟩ := hinv.quiet (by rw [hpc]; nofun)
  have hwrpos := hinv.wrpos wrpos hpc
  refine ⟨rfl, hreader, hrdpos.trans hwrpos.symm, ?console, hinv.fresh, ?_,
    hinv.late, ?_⟩
  case console =>
    exact
      { rdpos_lt := by
          rw [hwrpos]
          exact hinv.console.wrpos_lt
        wrpos_lt := hinv.console.wrpos_lt
        writer := .inl hwriter
        reader := trivial
        calls := hinv.console.calls
        accepted_eq := hinv.console.accepted_eq }
  · simp [flush, hreader, GetcharPc.hasByte]
  · exact (hinv.unread_flush hpc).trans haccepted.symm

theorem BeforeInv.afterInv_flush (hclear : s.Clear) :
    (s.flush wrpos).AfterInv := by
  have hok := hinv.console.reader
  have hwrpos := hinv.wrpos wrpos hpc
  rcases hclear with hempty | hreader
  · -- the flush stores what is there already
    have hsame : (s.flush wrpos).console.ipc = s.console.ipc := by
      simp only [flush, IpcBlock.setStdoutRdpos, hwrpos, ← hempty]
    refine .inl (hinv.calmInv_flush hpc (hsame ▸ hok) ?_)
    cases hpoint : s.console.reader with
    | readNext c =>
        rw [hpoint] at hok
        exact absurd hempty hok.1
    | storePos c rdpos =>
        rw [hpoint] at hok
        exact absurd hempty hok.1
    | _ => rfl
  · cases hpoint : s.console.reader with
    | storePos c rdpos =>
        rw [hpoint] at hreader
        exact .inr ⟨c, rdpos, hinv.pendingInv_flush hpc hpoint hreader⟩
    | idle =>
        refine .inl (hinv.calmInv_flush hpc ?_ ?_) <;> rw [hpoint]
        · trivial
        · rfl
    | checkPos =>
        refine .inl (hinv.calmInv_flush hpc ?_ ?_) <;> rw [hpoint]
        · trivial
        · rfl
    | readRdpos =>
        refine .inl (hinv.calmInv_flush hpc ?_ ?_) <;> rw [hpoint]
        · trivial
        · rfl
    | _ =>
        rw [hpoint] at hreader
        exact hreader.elim

end Flush

/-! ## A flush that is not clear -/

/-- The last access of `getchar`. -/
theorem storePos_completes {d : Console} {c : UInt8} {rdpos : ℕ}
    (hreader : d.reader = .storePos c rdpos) :
    Console.Repeats .reader d
      { d with
        ipc := d.ipc.setStdoutRdpos ((rdpos + 1) % stdoutBufSize)
        reader := .idle
        returned := d.returned ++ [c] } := by
  refine .head ?_ .refl
  simp only [Console.step, Console.readerStep, hreader]

/-- A console on which the next call of `getchar` returns a byte that nobody has
written since the flush. -/
structure Stale (d : Console) : Prop where
  reader : d.reader = .idle
  rdpos_lt : d.ipc.managerToExecutor.stdoutRdpos < stdoutBufSize
  nonempty : d.ipc.managerToExecutor.stdoutRdpos ≠
    d.ipc.executorToManager.stdoutWrpos
  accepted : d.accepted = []

theorem stale_of_storePos {d : Console} {c : UInt8} {rdpos : ℕ}
    (hreader : d.reader = .storePos c rdpos) (haccepted : d.accepted = [])
    (hne : (rdpos + 1) % stdoutBufSize ≠
      d.ipc.executorToManager.stdoutWrpos) :
    ∃ e, Console.Repeats .reader d e ∧ Stale e :=
  ⟨_, storePos_completes hreader, rfl, Nat.mod_lt _ (by decide), hne, haccepted⟩

/-- The flush has emptied the ring, and nothing has been written since. -/
structure Emptied (d : Console) : Prop where
  rdpos : d.ipc.managerToExecutor.stdoutRdpos =
    d.ipc.executorToManager.stdoutWrpos
  wrpos_lt : d.ipc.executorToManager.stdoutWrpos < stdoutBufSize
  accepted : d.accepted = []

section Overlap

variable {d : Console} (hd : Emptied d)
include hd

theorem stale_of_readNext {c : UInt8} (hreader : d.reader = .readNext c) :
    ∃ e, Console.Repeats .reader d e ∧ Stale e := by
  have hne : (d.ipc.managerToExecutor.stdoutRdpos + 1) % stdoutBufSize ≠
      d.ipc.executorToManager.stdoutWrpos := by
    rw [hd.rdpos]
    exact next_ne (by decide) hd.wrpos_lt
  obtain ⟨e, he, hstale⟩ := stale_of_storePos
    (d := { d with
      reader := .storePos c d.ipc.managerToExecutor.stdoutRdpos })
    rfl hd.accepted hne
  refine ⟨e, .head ?_ he, hstale⟩
  simp only [Console.step, Console.readerStep, hreader]

theorem stale_of_readByte {index : ℕ} (hreader : d.reader = .readByte index) :
    ∃ e, Console.Repeats .reader d e ∧ Stale e := by
  have hd' : Emptied { d with
      reader := .readNext (d.ipc.executorToManager.stdoutBuf index) } :=
    ⟨hd.rdpos, hd.wrpos_lt, hd.accepted⟩
  obtain ⟨e, he, hstale⟩ := stale_of_readNext hd' rfl
  refine ⟨e, .head ?_ he, hstale⟩
  simp only [Console.step, Console.readerStep, hreader]

theorem stale_of_readIndex (hreader : d.reader = .readIndex) :
    ∃ e, Console.Repeats .reader d e ∧ Stale e := by
  have hd' : Emptied { d with
      reader := .readByte d.ipc.managerToExecutor.stdoutRdpos } :=
    ⟨hd.rdpos, hd.wrpos_lt, hd.accepted⟩
  obtain ⟨e, he, hstale⟩ := stale_of_readByte hd' rfl
  refine ⟨e, .head ?_ he, hstale⟩
  simp only [Console.step, Console.readerStep, hreader]

theorem stale_of_readWrpos {rdpos : ℕ} (hreader : d.reader = .readWrpos rdpos)
    (hne : rdpos ≠ d.ipc.executorToManager.stdoutWrpos) :
    ∃ e, Console.Repeats .reader d e ∧ Stale e := by
  have hd' : Emptied { d with reader := .readIndex } :=
    ⟨hd.rdpos, hd.wrpos_lt, hd.accepted⟩
  obtain ⟨e, he, hstale⟩ := stale_of_readIndex hd' rfl
  refine ⟨e, .head ?_ he, hstale⟩
  simp only [Console.step, Console.readerStep, hreader, ne_eq, hne,
    not_false_eq_true, if_true]

end Overlap

/-- The overlapping call leaves a read position that is not the write
position. -/
theorem BeforeInv.stale_of_not_clear {wrpos : ℕ}
    (hinv : s.BeforeInv) (hpc : s.pc = .storeRdpos wrpos)
    (hnot : ¬s.Clear) :
    ∃ d, Console.Repeats .reader (s.flush wrpos).console d ∧ Stale d := by
  have hok := hinv.console.reader
  have hemptied : Emptied (s.flush wrpos).console :=
    ⟨hinv.wrpos wrpos hpc, hinv.console.wrpos_lt,
      (hinv.quiet (by rw [hpc]; nofun)).2⟩
  rw [Clear, not_or] at hnot
  obtain ⟨hnonempty, hreader⟩ := hnot
  cases hpoint : s.console.reader with
  | idle => simp [hpoint] at hreader
  | checkPos => simp [hpoint] at hreader
  | readRdpos => simp [hpoint] at hreader
  | resetPos =>
      rw [hpoint] at hok
      exact hok.elim
  | readWrpos rdpos =>
      rw [hpoint] at hok
      have hrdpos : rdpos = s.console.ipc.managerToExecutor.stdoutRdpos := hok
      refine stale_of_readWrpos hemptied hpoint ?_
      rw [hrdpos]
      exact hnonempty
  | readIndex => exact stale_of_readIndex hemptied hpoint
  | readByte index => exact stale_of_readByte hemptied hpoint
  | readNext c => exact stale_of_readNext hemptied hpoint
  | storePos c rdpos =>
      rw [hpoint] at hreader
      exact stale_of_storePos hpoint hemptied.accepted hreader

/-- Accesses of the reader as steps of the three parties. -/
theorem exists_run_reader (n : ℕ) {e : Console}
    (h : run Console.step s.console (List.replicate n .reader) = some e) :
    ∃ t, run Launch.step s (List.replicate n (.console .reader)) = some t ∧
      t.console = e ∧ t.pc = s.pc ∧ t.fresh = s.fresh ∧
      ∃ bytes, e.returned = s.console.returned ++ bytes ∧
        t.late = if s.fresh then s.late ++ bytes else s.late := by
  induction n generalizing s with
  | zero =>
      cases h
      refine ⟨s, rfl, rfl, rfl, rfl, [], ?_, ?_⟩
      · rw [List.append_nil]
      · rw [List.append_nil, ite_self]
  | succ n ih =>
      rw [List.replicate_succ] at h
      obtain ⟨d, hd, hrest⟩ := run_cons_eq_some.mp h
      obtain ⟨first, hfirst⟩ := (sameWriter_readerStep hd).returned
      have hdrop : d.returned.drop s.console.returned.length = first := by
        rw [← hfirst, List.drop_left]
      obtain ⟨t, ht, hconsole, hpc, hfresh, bytes, hbytes, hlate⟩ :=
        ih (s := s.record .reader d) hrest
      have hstep : s.step (.console .reader) = some (s.record .reader d) :=
        step_console_eq_some.mpr ⟨nofun, d, hd, rfl⟩
      refine ⟨t, run_cons_eq_some.mpr ⟨_, hstep, ht⟩, hconsole, hpc, hfresh,
        first ++ bytes, ?_, ?_⟩
      · rw [hbytes]
        simp only [record, ← hfirst, List.append_assoc]
      · rw [hlate]
        simp only [record, hdrop]
        split <;> simp

/-- Where the flush is not clear, some later call returns a byte that was
written before it. -/
theorem BeforeInv.exists_replay {wrpos : ℕ}
    (hinv : s.BeforeInv) (hpc : s.pc = .storeRdpos wrpos) (hnot : ¬s.Clear) :
    ∃ after t, run Launch.step s (.launch :: after) = some t ∧
      ¬t.NoReplay := by
  obtain ⟨d, ⟨n, hn⟩, hstale⟩ := hinv.stale_of_not_clear hpc hnot
  have hflush : s.step .launch = some (s.flush wrpos) := by
    simp only [Launch.step, launchStep, hpc, flush]
  obtain ⟨u, hu, hconsole, hupc, hufresh, bytes, -, hulate⟩ :=
    exists_run_reader n hn
  have hlate : u.late = [] := by
    rw [hulate]
    simp [flush, hinv.fresh, hinv.late]
  -- a call that begins now
  obtain ⟨e, he, ⟨m, hm⟩⟩ := getchar_completes hstale.reader
  rw [← hconsole] at he
  have hcall : u.step (.console .callGetchar) =
      some (u.record .callGetchar e) :=
    step_console_eq_some.mpr ⟨nofun, e, he, rfl⟩
  obtain ⟨t, ht, htconsole, htpc, -, bytes', hbytes', htlate⟩ :=
    exists_run_reader (s := u.record .callGetchar e) m hm
  refine ⟨List.replicate n (.console .reader) ++
    .console .callGetchar :: List.replicate m (.console .reader), t, ?_, ?_⟩
  · refine run_cons_eq_some.mpr ⟨_, hflush, ?_⟩
    rw [run_append, hu]
    exact run_cons_eq_some.mpr ⟨_, hcall, ht⟩
  · intro hnone
    have hflushed : u.pc.flushed = true := by
      rw [hupc]
      rfl
    have hreturned : e.returned = d.returned := by
      rw [returned_of_not_reader (a := .callGetchar) nofun he, hconsole]
    have hbyte : bytes' = (getchar d.ipc).2.toList := by
      have hboth : e.returned ++ bytes' =
          d.returned ++ (getchar d.ipc).2.toList := hbytes'.symm
      rw [hreturned] at hboth
      exact List.append_cancel_left hboth
    have hget : (getchar d.ipc).2 = some (d.ipc.executorToManager.stdoutBuf
        d.ipc.managerToExecutor.stdoutRdpos) := by
      have hlt := Nat.not_le.mpr hstale.rdpos_lt
      simp [getchar, hlt, hstale.nonempty]
    have haccepted : t.console.accepted = [] := by
      rw [htconsole]
      exact hstale.accepted
    have hempty := hnone (by
      rw [htpc]
      exact hflushed)
    have hfresh : (u.record .callGetchar e).fresh = true := hflushed
    rw [haccepted, htlate, if_pos hfresh, hbyte, hget] at hempty
    simp at hempty

/-! ## Runs -/

theorem BeforeInv.noReplay (hinv : s.BeforeInv) : s.NoReplay := by
  intro hflushed
  exact absurd (hinv.flushed.symm.trans hflushed) (by decide)

theorem noReplay_run {s₀ : Launch} {schedule : List LaunchAction}
    (hinit : s₀.Initial)
    (hclear : EachStep Launch.step s₀ schedule FlushesClear)
    (hrun : run Launch.step s₀ schedule = some t) :
    t.BeforeInv ∨ t.AfterInv := by
  refine @run_preserves_of_eachStep _ _ _ (fun s => s.BeforeInv ∨ s.AfterInv)
    _ ?_ _ _ _ (.inl hinit.before) hclear hrun
  intro s a t hinv ht hclear
  rcases hinv with hbefore | hafter
  · rcases hbefore.step ht with hstill | ⟨rfl, wrpos, hpc, rfl⟩
    · exact .inl hstill
    · exact .inr (hbefore.afterInv_flush hpc (hclear wrpos hpc))
  · exact .inr (hafter.step ht)

theorem flushed_step (hflushed : s.pc.flushed = true)
    (h : s.step a = some t) : t.pc.flushed = true := by
  cases a with
  | console b =>
      obtain ⟨-, c, -, rfl⟩ := step_console_eq_some.mp h
      exact hflushed
  | terminate =>
      simp only [Launch.step] at h
      split at h
      next hpc =>
        rw [hpc] at hflushed
        cases hflushed
      · cases h
  | launch =>
      simp only [Launch.step, launchStep] at h
      split at h
      next hpc =>
        rw [hpc] at hflushed
        cases hflushed
      · cases h
        rfl
      · cases h
        rfl
      all_goals cases h

theorem before_of_run {s₀ : Launch} {schedule : List LaunchAction}
    (hinit : s₀.Initial) (hrun : run Launch.step s₀ schedule = some s)
    (hflushed : s.pc.flushed = false) : s.BeforeInv := by
  have hinv : s.BeforeInv ∨ s.pc.flushed = true := by
    refine @run_preserves _ _ _ (fun s => s.BeforeInv ∨ s.pc.flushed = true)
      ?_ _ _ _ (.inl hinit.before) hrun
    intro s a t hinv ht
    rcases hinv with hbefore | hafter
    · rcases hbefore.step ht with hstill | ⟨-, wrpos, -, rfl⟩
      · exact .inl hstill
      · exact .inr rfl
    · exact .inr (flushed_step hafter ht)
  rcases hinv with hbefore | hafter
  · exact hbefore
  · exact absurd (hflushed.symm.trans hafter) (by decide)

end Launch

/-- When the flush of a run is clear, no byte from before it is returned by a
later call, and the bytes of the new payload are returned once each and in
order, in every state of the run.  From every other flush the run can go on to
return an old byte. -/
theorem noReplay_exactly_of_clear {s₀ : Launch} (hinit : s₀.Initial) :
    (∀ schedule, EachStep Launch.step s₀ schedule Launch.FlushesClear →
        Throughout Launch.step s₀ schedule Launch.NoReplay) ∧
      ∀ before s wrpos, run Launch.step s₀ before = some s →
        s.pc = .storeRdpos wrpos → ¬s.Clear →
          ∃ after t, run Launch.step s (.launch :: after) = some t ∧
            ¬t.NoReplay := by
  constructor
  · intro schedule hclear before t hpart hrun
    have hclear' : EachStep Launch.step s₀ before Launch.FlushesClear :=
      fun part a u v hinit => hclear part a u v (hinit.trans hpart)
    rcases Launch.noReplay_run hinit hclear' hrun with hbefore | hafter
    · exact hbefore.noReplay
    · exact hafter.noReplay
  · intro before s wrpos hrun hpc hnot
    have hbefore := Launch.before_of_run hinit hrun (by rw [hpc]; rfl)
    exact hbefore.exists_replay hpc hnot

/-- A block with no call in progress. -/
def Launch.start (ipc : IpcBlock) : Launch where
  console := .start ipc
  pc := .payloadRuns
  fresh := false
  readBefore := false
  early := []
  late := []

theorem Launch.start_initial : (Launch.start .zero).Initial :=
  ⟨Console.start_initial, rfl, rfl, rfl, rfl⟩

theorem noReplay_exactly_of_clear_zero :
    (∀ schedule,
        EachStep Launch.step (.start .zero) schedule Launch.FlushesClear →
          Throughout Launch.step (.start .zero) schedule Launch.NoReplay) ∧
      ∀ before s wrpos, run Launch.step (.start .zero) before = some s →
        s.pc = .storeRdpos wrpos → ¬s.Clear →
          ∃ after t, run Launch.step s (.launch :: after) = some t ∧
            ¬t.NoReplay :=
  noReplay_exactly_of_clear Launch.start_initial

/-- A payload writes two bytes, and `getchar` is about to store the position
behind the first one when the next payload is started. -/
def overlappedFlush : List LaunchAction :=
  [.console (.callWrite [65, 66])] ++ List.replicate 12 (.console .writer) ++
    [.console .callGetchar] ++ List.replicate 6 (.console .reader) ++
    [.terminate, .launch, .launch]

/-- The next call of `getchar` returns the second byte. -/
theorem not_noReplay_overlappedFlush :
    ¬∀ s₀ schedule, Launch.Initial s₀ →
      Throughout Launch.step s₀ schedule Launch.NoReplay := by
  intro hright
  let schedule := overlappedFlush ++ [.console .reader, .console .callGetchar] ++
    List.replicate 7 (.console .reader)
  have hrun : (run Launch.step (.start .zero) schedule).any (fun t =>
      t.pc.flushed && decide (t.late = [66]) &&
        decide (t.console.accepted = [])) = true := by
    decide
  obtain ⟨t, ht, htest⟩ := (Option.any_eq_true _ _).mp hrun
  simp only [Bool.and_eq_true, decide_eq_true_eq] at htest
  obtain ⟨⟨hflushed, hlate⟩, haccepted⟩ := htest
  have hnone := hright (.start .zero) schedule Launch.start_initial schedule t
    (List.prefix_refl _) ht hflushed
  rw [hlate, haccepted] at hnone
  simp at hnone

end Bmboot
