import Bmboot.System.Loading

/-!
# Refused loads

A loader that ends with `bad_domain_state` has left payload memory and the
manager's half of the block as they were, provided that no command, not even a
noop, was pending when it found the domain ready: only `startPayloadAt`, after
the stores, compares the sequence numbers.
-/

namespace Bmboot

open StepSystem

/-- Payload memory after a list of stores. -/
def applyStores (mem : BitVec 64 → UInt8) (stores : List (BitVec 64 × UInt8)) :
    BitVec 64 → UInt8 :=
  stores.foldl (fun mem p => Function.update mem p.1 p.2) mem

/-- The stores bring back what was there. -/
def StoresUnchanged (mem : BitVec 64 → UInt8)
    (stores : List (BitVec 64 × UInt8)) : Prop :=
  ∀ p ∈ stores, applyStores mem stores p.1 = mem p.1

instance (mem : BitVec 64 → UInt8) (stores : List (BitVec 64 × UInt8)) :
    Decidable (StoresUnchanged mem stores) :=
  inferInstanceAs (Decidable (∀ p ∈ stores, _))

/-- A loader that will reach `startPayloadAt` and change payload memory on its
way does not find the domain ready while a command is pending. -/
def ManagerPc.StoresSafely (s : System) : ManagerPc → Prop
  | .load l .checkState =>
      s.getState = .monitorReady → l.refusal = none → l.error = none →
        s.mailbox.Settled ∨ StoresUnchanged s.mem l.stores
  | _ => True

def NoUnsafeStore (s : System) : Action → Prop
  | .manager => s.manager.pc.StoresSafely s
  | _ => True

instance (s : System) : ∀ pc : ManagerPc, Decidable (pc.StoresSafely s)
  | .load l .checkState =>
      inferInstanceAs (Decidable (s.getState = .monitorReady →
        l.refusal = none → l.error = none →
          s.mailbox.Settled ∨ StoresUnchanged s.mem l.stores))
  | .load _ .map | .load _ (.store _) => isTrue trivial
  | .idle | .startup _ _ | .ensure _ | .start _ _ | .poll _ | .terminate _
  | .await => isTrue trivial

instance (s : System) : ∀ a : Action, Decidable (NoUnsafeStore s a)
  | .manager => inferInstanceAs (Decidable (s.manager.pc.StoresSafely s))
  | .call _ | .fail _ | .timeout | .monitor | .fiq | .smc _ | .abort _ _ _ =>
      isTrue trivial

/-- The domain is ready and no command is pending. -/
structure System.Free (s : System) : Prop where
  calm : s.Calm
  settled : s.mailbox.Settled

/-- The manager has written nothing since the call began. -/
structure System.Untouched (s : System) : Prop where
  mem : s.mem = s.managerLog.memAtCall
  outbox : s.ipc.managerToExecutor = s.managerLog.outboxAtCall

/-- The manager's half of the block is as it was, and so is payload memory
unless the domain is free. -/
structure System.UntouchedOrFree (s : System) : Prop where
  outbox : s.ipc.managerToExecutor = s.managerLog.outboxAtCall
  mem : s.Free ∨ s.mem = s.managerLog.memAtCall

def ManagerPc.RefusalOk (s : System) : ManagerPc → Prop
  | .load _ .checkState => s.Untouched
  | .load l .map =>
      s.Untouched ∧ (l.refusal = none → l.error = none →
        s.Free ∨ applyStores s.mem l.stores = s.mem)
  | .load l (.store rest) =>
      s.ipc.managerToExecutor = s.managerLog.outboxAtCall ∧
        (l.error = none →
          s.Free ∨ applyStores s.mem rest = s.managerLog.memAtCall)
  | .start _ .checkState | .start _ .readAck => s.UntouchedOrFree
  | .start _ (.readSeq ack) =>
      s.ipc.managerToExecutor = s.managerLog.outboxAtCall ∧
        (ack = s.cmdSeq ∨ s.mem = s.managerLog.memAtCall)
  | _ => True

section Stores

variable (mem : BitVec 64 → UInt8) (stores : List (BitVec 64 × UInt8))

@[simp] theorem applyStores_cons (p : BitVec 64 × UInt8) :
    applyStores mem (p :: stores) =
      applyStores (Function.update mem p.1 p.2) stores := rfl

theorem applyStores_of_not_mem {address : BitVec 64}
    (h : ∀ p ∈ stores, p.1 ≠ address) :
    applyStores mem stores address = mem address := by
  induction stores generalizing mem with
  | nil => rfl
  | cons p rest ih =>
      have hne : p.1 ≠ address := h p List.mem_cons_self
      rw [applyStores_cons,
        ih _ fun q hq => h q (List.mem_cons_of_mem p hq),
        Function.update_of_ne hne.symm]

theorem StoresUnchanged.applyStores_eq (h : StoresUnchanged mem stores) :
    applyStores mem stores = mem := by
  funext address
  by_cases hmem : ∃ p ∈ stores, p.1 = address
  · obtain ⟨p, hp, rfl⟩ := hmem
    exact h p hp
  · refine applyStores_of_not_mem mem stores ?_
    intro p hp heq
    exact hmem ⟨p, hp, heq⟩

end Stores

section Invariant

variable {cpu : DomainIndex} {s t : System} {a : Action}

theorem System.Free.getState
    (hs : s.Free) (hstate : StateInv s) : s.getState = .monitorReady := by
  have hreset : s.monitor ≠ .inReset := by
    intro hin
    have hrest := hs.calm.monitor
    rw [hin] at hrest
    exact hrest
  exact System.getState_of_code (hstate.started hreset) hs.calm.state

theorem System.Free.cmdAck_eq
    (hs : s.Free) (hcommand : CommandInv s) : s.cmdAck = s.cmdSeq := by
  have hreset : s.monitor ≠ .inReset := by
    intro hin
    have hrest := hs.calm.monitor
    rw [hin] at hrest
    exact hrest
  exact ((hcommand.settled_iff hreset).mpr hs.settled).symm

/-- A settled domain that reports `monitor_ready` is free. -/
theorem free_of_ready
    (hstate : StateInv s) (hcommand : CommandInv s) (hparam : ParamInv s)
    (hready : s.getState = .monitorReady) (hsettled : s.mailbox.Settled) :
    s.Free := by
  refine ⟨calm_of_ready hstate hcommand hparam hready ?_, hsettled⟩
  intro hpending
  exact hsettled.not_pending hpending.1

theorem System.Free.congr
    (hs : s.Free) (hinbox : t.ipc.executorToManager = s.ipc.executorToManager)
    (hmonitor : t.monitor = s.monitor) (hmailbox : t.mailbox = s.mailbox) :
    t.Free := by
  have hsettled : t.mailbox.Settled := by
    rw [hmailbox]
    exact hs.settled
  refine ⟨⟨?_, ?_, .inl hsettled⟩, hsettled⟩
  · rw [hinbox]
    exact hs.calm.state
  · rw [hmonitor]
    exact hs.calm.monitor

/-- The domain stays free until the next command. -/
theorem System.Free.step
    (hs : s.Free) (hstate : StateInv s) (hkill : KillInv cpu s)
    (hcommand : CommandInv s) (h : s.step cpu a = some t)
    (hissued : t.managerLog.issued = s.managerLog.issued)
    (hcmd : t.ipc.managerToExecutor.cmd = s.ipc.managerToExecutor.cmd) :
    t.Free := by
  refine ⟨hs.calm.step hstate hkill hcommand h hissued hcmd, ?_⟩
  rw [hcommand.mailbox_eq_of_settled hstate h hs.settled hissued]
  exact hs.settled

/-- A step of the core. -/
theorem ManagerPc.RefusalOk.core {pc : ManagerPc}
    (h : pc.RefusalOk s) (hsame : System.SameManager s t)
    (hfree : s.Free → t.Free) : pc.RefusalOk t := by
  have huntouched : s.Untouched → t.Untouched := by
    rintro ⟨hmem, houtbox⟩
    exact ⟨by rw [hsame.mem, hsame.managerLog, hmem],
      by rw [hsame.outbox, hsame.managerLog, houtbox]⟩
  have houtbox : s.ipc.managerToExecutor = s.managerLog.outboxAtCall →
      t.ipc.managerToExecutor = t.managerLog.outboxAtCall := by
    rw [hsame.outbox, hsame.managerLog]
    exact id
  have hmem : ∀ {P : Prop}, (s.Free ∨ P) → t.Free ∨ P :=
    fun h => h.imp_left hfree
  cases pc with
  | load l pc =>
      cases pc with
      | checkState => exact huntouched h
      | map =>
          refine ⟨huntouched h.1, ?_⟩
          intro hrefusal herror
          rw [hsame.mem]
          exact hmem (h.2 hrefusal herror)
      | store rest =>
          refine ⟨houtbox h.1, ?_⟩
          intro herror
          rw [hsame.mem, hsame.managerLog]
          exact hmem (h.2 herror)
  | start args pc =>
      cases pc with
      | checkState | readAck =>
          refine ⟨houtbox h.1, ?_⟩
          rw [hsame.mem, hsame.managerLog]
          exact hmem h.2
      | readSeq ack =>
          refine ⟨houtbox h.1, ?_⟩
          rw [System.cmdSeq, hsame.outbox, hsame.mem, hsame.managerLog]
          exact h.2
      | _ => trivial
  | _ => trivial

theorem refusalOk_loadStep
    (hs : s.manager.pc.RefusalOk s) (hstate : StateInv s)
    (hcommand : CommandInv s) (hparam : ParamInv s) {load : Load} {pc : LoadPc}
    (hpc : s.manager.pc = .load load pc) (ha : NoUnsafeStore s .manager) :
    (s.loadStep load pc).manager.pc.RefusalOk (s.loadStep load pc) := by
  rw [hpc] at hs
  match pc with
  | .checkState =>
      simp only [System.loadStep]
      split_ifs with hready
      · trivial
      · have hguard := ha
        simp only [NoUnsafeStore, hpc, ManagerPc.StoresSafely] at hguard
        refine ⟨⟨hs.1, hs.2⟩, ?_⟩
        intro hrefusal herror
        have hready' := not_not.mp hready
        rcases hguard hready' hrefusal herror with hsettled | hunchanged
        · have hsfree :=
            free_of_ready hstate hcommand hparam hready' hsettled
          exact .inl (hsfree.congr rfl rfl rfl)
        · exact .inr (StoresUnchanged.applyStores_eq _ _ hunchanged)
  | .map =>
      simp only [System.loadStep]
      split
      · trivial
      next hrefusal =>
        refine ⟨hs.1.2, ?_⟩
        intro herror
        rcases hs.2 hrefusal herror with hsfree | hunchanged
        · exact .inl (hsfree.congr rfl rfl rfl)
        · exact .inr (hunchanged.trans hs.1.1)
  | .store ((address, b) :: rest) =>
      refine ⟨hs.1, ?_⟩
      intro herror
      rcases hs.2 herror with hsfree | hunchanged
      · exact .inl (hsfree.congr rfl rfl rfl)
      · exact .inr hunchanged
  | .store [] =>
      simp only [System.loadStep]
      split
      · trivial
      next herror =>
        refine ⟨hs.1, ?_⟩
        rcases hs.2 herror with hsfree | hunchanged
        · exact .inl (hsfree.congr rfl rfl rfl)
        · exact .inr hunchanged

theorem refusalOk_startStep
    (hs : s.manager.pc.RefusalOk s) (hcommand : CommandInv s)
    {args : StartArgs} {pc : StartPc} (hpc : s.manager.pc = .start args pc) :
    (s.startStep args pc).manager.pc.RefusalOk (s.startStep args pc) := by
  rw [hpc] at hs
  cases pc with
  | checkState =>
      simp only [System.startStep]
      split_ifs
      · trivial
      · exact ⟨hs.1, hs.2.imp_left fun hfree => hfree.congr rfl rfl rfl⟩
  | readAck =>
      refine ⟨hs.1, hs.2.imp_left ?_⟩
      intro hfree
      exact hfree.cmdAck_eq hcommand
  | readSeq ack =>
      simp only [System.startStep]
      split_ifs <;> trivial
  | _ => trivial

theorem refusalOk_step
    (hs : s.manager.pc.RefusalOk s) (hstate : StateInv s)
    (hkill : KillInv cpu s) (hcommand : CommandInv s) (hparam : ParamInv s)
    (ha : NoUnsafeStore s a) (h : s.step cpu a = some t) :
    t.manager.pc.RefusalOk t := by
  revert ha
  refine System.step_cases_manager
    (P := fun a t => NoUnsafeStore s a → t.manager.pc.RefusalOk t) h
    ?call ?startup ?ensure
    (fun _ _ hpc ha => refusalOk_loadStep hs hstate hcommand hparam hpc ha)
    (fun _ _ hpc _ => refusalOk_startStep hs hcommand hpc) ?poll ?terminate
    ?await (fun _ _ _ => trivial) (fun _ _ => trivial) (fun _ _ => trivial)
    ?core
  case call =>
    intro c _ _
    cases c with
    | loadAndStartPayload | loadElfPayload => exact ⟨rfl, rfl⟩
    | startDummyPayload => exact ⟨rfl, .inr rfl⟩
    | _ => trivial
  case startup =>
    intro cntfrq pc _ _
    cases pc <;> simp only [System.startupStep] <;> (try split) <;> trivial
  case ensure =>
    intro cntfrq _ _
    simp only [System.ensureStep]
    split_ifs <;> trivial
  case poll =>
    intro pc _ _
    cases pc <;> simp only [System.pollStep] <;> (try split_ifs) <;> trivial
  case terminate =>
    intro pc _ _
    cases pc <;> simp only [System.terminateStep] <;> (try split_ifs) <;>
      trivial
  case await =>
    intro hpc _
    simp only [System.awaitStep]
    split_ifs
    · trivial
    · rw [hpc]
      trivial
  case core =>
    intro a t ht _ hsame _
    rw [hsame.manager]
    refine hs.core hsame fun hfree => ?_
    exact hfree.step hstate hkill hcommand ht (by rw [hsame.managerLog])
      (by rw [hsame.outbox])

theorem refusalOk_of_reachable
    (h : Reachable (System.step cpu) System.Initial NoUnsafeStore s) :
    s.manager.pc.RefusalOk s := by
  induction h with
  | init hs =>
      rw [hs.pc]
      trivial
  | step hreach ha ht ih =>
      exact refusalOk_step ih (stateInv_of_reachable hreach)
        (killInv_of_reachable hreach) (commandInv_of_reachable hreach)
        (paramInv_of_reachable hreach) ha ht

/-! ## Main result -/

/-- If a step refuses a load with `bad_domain_state`, it leaves payload memory
and the manager's half of the block as they were before the call. -/
def RefusalClean (cpu : DomainIndex) (s t : System) : Prop :=
  s.manager.result = none →
    t.manager.result = some (some .badDomainState) →
      ∀ c load, s.manager.call = some c → c.load cpu = some load → t.Untouched

/-- A load is refused while another payload is starting. -/
def busySchedule : List Action :=
  startupSchedule ++ loadElfSchedule validElf 7 ++ validationSchedule ++
    entrySchedule ++ [.timeout, .call (.loadElfPayload blankElf 0)]

/-- An image that takes the header of `validElf` apart. -/
def overwritingElf : ElfImage where
  stores := [(0x800100008, 0)]
  error := false
  entryAddress := 0x800100000

/-- A start times out before the monitor has picked it up, and the next load
overwrites its image before it is refused. -/
def overwriteSchedule : List Action :=
  startupSchedule ++ loadElfSchedule validElf 7 ++
    .timeout :: .call (.loadElfPayload overwritingElf 0) :: managerSteps 6

end Invariant

end Bmboot
