import Bmboot.Loader.FlatImage
import Bmboot.System.Recovery

/-!
# Any valid image can be started

From every recoverable state there is a run at whose end a given valid image
is running: the domain is terminated, the monitor acknowledges the noop, the
image is loaded and validated, the payload confirms its start, and the manager
returns success.  The run is put together from four stretches in each of which
only one side moves.
-/

namespace Bmboot

open StepSystem Routine

section Startable

variable {cpu : DomainIndex} {s t : System}

/-! ## The noop is acknowledged -/

/-- The monitor polls, no command waits, and the manager is between calls. -/
structure System.AwaitsLoad (cpu : DomainIndex) (s : System) : Prop where
  sound : s.Sound cpu
  idle : s.manager.pc = .idle
  monitor : s.monitor = .loop .readSeq
  settled : s.mailbox.Settled

theorem exists_awaitsLoad
    (h : s.Sound cpu)
    (hidle : s.manager.pc = .idle) (hmonitor : s.monitor = .loop .readSeq)
    (hnoop : s.ipc.managerToExecutor.cmd = Command.noop.code) :
    ∃ t, Reaches (System.step cpu) Action.OnlyConfirms s t ∧ t.AwaitsLoad cpu := by
  have hcommand := h.command
  have hcounts := hcommand.counts (hcommand.cleared (by simp [hmonitor]))
  rcases hcommand.alternates with hsettled | hpending
  · exact ⟨s, .refl _ _ s, h, hidle, hmonitor, hsettled⟩
  have hne : s.cmdSeq ≠ s.cmdAck := by
    intro heq
    have hsettled := (hcounts.eq_iff_settled (by decide) (.inr hpending)).mp heq
    exact hsettled.not_pending hpending
  have hfirst :
      s.step cpu .monitor = some (s.gotoMonitor (.loop (.readAck s.cmdSeq))) := by
    simp only [System.step, System.monitorStep, hmonitor, System.loopStep]
    rfl
  have hsecond :
      (s.gotoMonitor (.loop (.readAck s.cmdSeq))).step cpu .monitor =
        some ((s.gotoMonitor (.loop (.readAck s.cmdSeq))).gotoMonitor
          (.loop .readCmd)) :=
    congrArg some (if_pos hne)
  have hthird :
      ((s.gotoMonitor (.loop (.readAck s.cmdSeq))).gotoMonitor
          (.loop .readCmd)).step cpu .monitor =
        some (s.gotoMonitor (.noop .readAck)) :=
    congrArg some (if_pos hnoop)
  have hrun :
      run (System.step cpu) s (monitorSteps 5) =
        some (((s.gotoMonitor (.noop .readAck)).noopStep .readAck).noopStep
          (.writeAck (s.cmdAck + 1))) :=
    run_cons_eq_some.mpr ⟨_, hfirst, run_cons_eq_some.mpr ⟨_, hsecond,
      run_cons_eq_some.mpr ⟨_, hthird, rfl⟩⟩⟩
  exact ⟨_, ⟨_, onlyConfirms_monitorSteps 5, hrun⟩, h.run hrun, hidle, rfl,
    Mailbox.settled_answer Outcome.noop hpending⟩

/-! ## The image is loaded -/

/-- The bytes of a load are stored one after the other. -/
theorem reaches_stored
    (cpu : DomainIndex) {load : Load} (stores : List (BitVec 64 × UInt8))
    (hpc : s.manager.pc = .load load (.store stores)) :
    ∃ t, Reaches (System.step cpu) Action.OnlyConfirms s t ∧
      t.manager = { s.manager with pc := .load load (.store []) } ∧
      t.mem = applyStores s.mem stores ∧ t.ipc = s.ipc ∧
      t.monitor = s.monitor ∧ t.mailbox = s.mailbox := by
  induction stores generalizing s with
  | nil =>
      refine ⟨s, .refl _ _ s, ?_, rfl, rfl, rfl, rfl⟩
      rw [← hpc]
  | cons store rest ih =>
      obtain ⟨address, b⟩ := store
      have hstep :
          s.step cpu .manager =
            some (s.loadStep load (.store ((address, b) :: rest))) := by
        simp only [System.step, System.managerStep, hpc]
      obtain ⟨t, hreaches, hmanager, hmem, hipc, hmonitor, hmailbox⟩ :=
        ih (s := s.loadStep load (.store ((address, b) :: rest))) rfl
      exact ⟨t, .head hstep trivial hreaches, hmanager, hmem, hipc, hmonitor, hmailbox⟩

/-- The command for an image has been issued, and its bytes are in place. -/
structure System.Issued (f : FlatImage) (s : System) : Prop where
  sound : s.Sound f.domain
  pc : s.manager.pc = .poll .readAck
  call : s.manager.call = some (.loadAndStartPayload f.image f.crc f.argument)
  monitor : s.monitor = .loop .readSeq
  pending : s.mailbox.Pending
  mem : ∃ mem, s.mem = applyStores mem f.load.stores
  cmd : s.ipc.managerToExecutor.cmd = Command.startPayload.code
  entryAddress : s.ipc.managerToExecutor.payloadEntryAddress =
    f.load.args.entryAddress
  size : s.ipc.managerToExecutor.payloadSize = f.load.args.payloadSize
  crc : s.ipc.managerToExecutor.payloadCrc = f.load.args.payloadCrc
  argument : s.ipc.managerToExecutor.payloadArgument = f.argument

theorem FlatImage.refusal_load (f : FlatImage) : f.load.refusal = none := by
  have hlength : ¬f.image.length > payloadAreaSize := Nat.not_lt.mpr f.length_le
  simp only [load, flatLoad, if_neg hlength, if_neg f.nonempty]

/-- `startPayloadAt` past its checks. -/
theorem reaches_issued_of_start
    {f : FlatImage} (h : s.Sound f.domain)
    (hpc : s.manager.pc = .start f.load.args .checkState)
    (hcall : s.manager.call = some (.loadAndStartPayload f.image f.crc f.argument))
    (hready : s.getState = .monitorReady) (hmonitor : s.monitor = .loop .readSeq)
    (hsettled : s.mailbox.Settled)
    (hmem : ∃ mem, s.mem = applyStores mem f.load.stores) :
    ∃ t, Reaches (System.step f.domain) Action.OnlyConfirms s t ∧ t.Issued f := by
  have hcommand := h.command
  have hcounts := hcommand.counts (hcommand.cleared (by simp [hmonitor]))
  have heq : s.cmdSeq = s.cmdAck :=
    (hcounts.eq_iff_settled (by decide) (.inl hsettled)).mpr hsettled
  have hcheck :
      s.step f.domain .manager =
        some (s.gotoManager (.start f.load.args .readAck)) := by
    simp only [System.step, System.managerStep, hpc, System.startStep, hready,
      ne_eq, not_true_eq_false, if_false]
  have hseq :
      ((s.gotoManager (.start f.load.args .readAck)).gotoManager
          (.start f.load.args (.readSeq s.cmdAck))).step f.domain .manager =
        some (s.gotoManager (.start f.load.args .readWrpos)) :=
    congrArg some (if_neg (not_not_intro heq.symm))
  have hrun :
      run (System.step f.domain) s (managerSteps 12) =
        run (System.step f.domain) (s.gotoManager (.start f.load.args .readWrpos))
          (managerSteps 9) := by
    rw [managerSteps, List.replicate_succ, run, hcheck, Option.bind_some]
    rw [List.replicate_succ, run]
    change run (System.step f.domain)
      ((s.gotoManager (.start f.load.args .readAck)).gotoManager
        (.start f.load.args (.readSeq s.cmdAck))) (List.replicate 10 .manager) = _
    rw [List.replicate_succ, run, hseq, Option.bind_some]
    rfl
  obtain ⟨t, ht⟩ : ∃ t,
      run (System.step f.domain) (s.gotoManager (.start f.load.args .readWrpos))
        (managerSteps 9) = some t := ⟨_, rfl⟩
  have hsound := h.run (hrun.trans ht)
  refine ⟨t, ⟨_, onlyConfirms_managerSteps 12, hrun.trans ht⟩, ?_⟩
  cases ht
  exact
    { sound := hsound
      pc := rfl
      call := hcall
      monitor := hmonitor
      pending := Mailbox.pending_issue f.load.args hsettled
      mem := hmem
      cmd := rfl
      entryAddress := rfl
      size := rfl
      crc := rfl
      argument := rfl }

/-- The loader gets from a calm monitor to its command. -/
theorem System.AwaitsLoad.reaches_issued
    {f : FlatImage} (hs : s.AwaitsLoad f.domain) :
    ∃ t, Reaches (System.step f.domain) Action.OnlyConfirms s t ∧ t.Issued f := by
  have hstate := hs.sound.state
  have hword : s.ipc.executorToManager.state = DomainState.monitorReady.code := by
    have hok := hstate.state
    rw [hs.monitor] at hok
    exact hok
  have hready : s.getState = .monitorReady :=
    System.getState_of_code (hstate.started (by simp [hs.monitor])) hword
  have hcall :
      s.step f.domain (.call (.loadAndStartPayload f.image f.crc f.argument)) =
        some (s.beginCall f.domain
          (.loadAndStartPayload f.image f.crc f.argument)) := by
    simp only [System.step, System.callStep, hs.idle]
  have hcheck :
      (s.beginCall f.domain
          (.loadAndStartPayload f.image f.crc f.argument)).step f.domain .manager =
        some ((s.beginCall f.domain
          (.loadAndStartPayload f.image f.crc f.argument)).gotoManager
            (.load f.load .map)) :=
    congrArg some (if_neg (not_not_intro hready))
  have hmap :
      ((s.beginCall f.domain
          (.loadAndStartPayload f.image f.crc f.argument)).gotoManager
            (.load f.load .map)).step f.domain .manager =
        some ((s.beginCall f.domain
          (.loadAndStartPayload f.image f.crc f.argument)).gotoManager
            (.load f.load (.store f.load.stores))) := by
    simp only [System.step, System.managerStep, System.gotoManager,
      System.loadStep, f.refusal_load]
  obtain ⟨u, hstored, hmanager, hmem, hipc, hmonitor, hmailbox⟩ :=
    reaches_stored f.domain
      (s := (s.beginCall f.domain
        (.loadAndStartPayload f.image f.crc f.argument)).gotoManager
          (.load f.load (.store f.load.stores))) f.load.stores rfl
  have hpc : u.manager.pc = .load f.load (.store []) := by
    rw [hmanager]
  have hdone :
      u.step f.domain .manager =
        some (u.gotoManager (.start f.load.args .checkState)) := by
    simp only [System.step, System.managerStep, hpc, System.loadStep]
    rfl
  have hloaded :
      Reaches (System.step f.domain) Action.OnlyConfirms s
        (u.gotoManager (.start f.load.args .checkState)) :=
    .head hcall trivial (.head hcheck trivial (.head hmap trivial
      (hstored.trans (.head hdone trivial (.refl _ _ _)))))
  have hready' : (u.gotoManager (.start f.load.args .checkState)).getState =
      .monitorReady := by
    have hgeneral : u.manager.generalState = s.manager.generalState := by
      rw [hmanager]
      rfl
    simp only [System.getState, System.gotoManager, hgeneral, hipc]
    exact hready
  have hcall' : u.manager.call =
      some (.loadAndStartPayload f.image f.crc f.argument) := by
    rw [hmanager]
    rfl
  have hsettled : u.mailbox.Settled := by
    rw [hmailbox]
    exact hs.settled
  obtain ⟨t, hissued, ht⟩ :=
    reaches_issued_of_start (hs.sound.reaches hloaded) rfl hcall' hready'
      (hmonitor.trans hs.monitor) hsettled ⟨_, hmem⟩
  exact ⟨t, hloaded.trans hissued, ht⟩

/-! ## The image is validated and entered -/

/-- What the monitor knows at each point between the head of its loop and the
payload. -/
def MonitorPc.LaunchOk (f : FlatImage) (s : System) : MonitorPc → Prop
  | .loop .readSeq => s.mailbox.Pending
  | .loop (.readAck seq) => seq ≠ s.cmdAck
  | .loop .readCmd => True
  | .command (.readSize image) => image = f.load.args.entryAddress
  | .command (.readCrc image imageSize) =>
      image = f.load.args.entryAddress ∧ imageSize = f.load.args.payloadSize
  | .command (.validate call pc) => pc.verdict call s.mem = .crcOk
  | .command (.writeResp resp) => resp = .crcOk
  | .command (.readAck resp) | .command (.writeAck resp _) =>
      resp = .crcOk ∧ s.ipc.executorToManager.cmdResp = Response.crcOk.code
  | .command _ => True
  | .accepted _ =>
      s.mailbox.Settled ∧ s.ipc.executorToManager.cmdResp = Response.crcOk.code
  | .el1 .payload =>
      s.mailbox.Settled ∧
        s.ipc.executorToManager.cmdResp = Response.crcOk.code ∧
        s.irq.killDeliverable f.domain = true
  | _ => False

/-- A valid image is about to be validated and entered, by a monitor that
nobody disturbs. -/
structure System.Launching (f : FlatImage) (m : Manager) (s : System) : Prop where
  sound : s.Sound f.domain
  manager : s.manager = m
  mem : ∃ mem, s.mem = applyStores mem f.load.stores
  cmd : s.ipc.managerToExecutor.cmd = Command.startPayload.code
  entryAddress : s.ipc.managerToExecutor.payloadEntryAddress =
    f.load.args.entryAddress
  size : s.ipc.managerToExecutor.payloadSize = f.load.args.payloadSize
  crc : s.ipc.managerToExecutor.payloadCrc = f.load.args.payloadCrc
  argument : s.ipc.managerToExecutor.payloadArgument = f.argument
  monitor : s.monitor.LaunchOk f s

theorem System.Issued.launching
    {f : FlatImage} (hs : s.Issued f) : s.Launching f s.manager where
  sound := hs.sound
  manager := rfl
  mem := hs.mem
  cmd := hs.cmd
  entryAddress := hs.entryAddress
  size := hs.size
  crc := hs.crc
  argument := hs.argument
  monitor := by
    rw [hs.monitor]
    exact hs.pending

/-- The steps left until the payload is entered. -/
def MonitorPc.launchDistance (f : FlatImage) : MonitorPc → ℕ
  | .loop .readSeq => f.load.args.payloadSize.toNat + 60
  | .loop (.readAck _) => f.load.args.payloadSize.toNat + 59
  | .loop .readCmd => f.load.args.payloadSize.toNat + 58
  | .command .writeState => f.load.args.payloadSize.toNat + 57
  | .command .flushMask => f.load.args.payloadSize.toNat + 56
  | .command (.flushInvalidate _) => f.load.args.payloadSize.toNat + 55
  | .command (.flushRestore _) => f.load.args.payloadSize.toNat + 54
  | .command .checkEntryAddress => f.load.args.payloadSize.toNat + 53
  | .command .readEntryAddress => f.load.args.payloadSize.toNat + 52
  | .command (.readSize _) => f.load.args.payloadSize.toNat + 51
  | .command (.readCrc _ _) => f.load.args.payloadSize.toNat + 50
  | .command (.validate _ pc) => pc.measure + 6
  | .command (.writeResp _) => 5
  | .command (.readAck _) => 4
  | .command (.writeAck _ _) => 3
  | .accepted .readEntryAddress => 2
  | .accepted (.enterEl1 _) => 1
  | _ => 0

theorem verdict_start_load
    {f : FlatImage} (hvalid : f.Valid) {mem : BitVec 64 → UInt8}
    (hmem : ∃ old, mem = applyStores old f.load.stores) :
    ValidatePc.verdict
      { image := f.load.args.entryAddress, imageSize := f.load.args.payloadSize
        crcExpected := f.load.args.payloadCrc } mem
      (ValidateCall.start
        { image := f.load.args.entryAddress, imageSize := f.load.args.payloadSize
          crcExpected := f.load.args.payloadCrc }) = .crcOk := by
  obtain ⟨old, rfl⟩ := hmem
  exact ((f.determined_of_length hvalid.length).crcOk old).mpr hvalid

theorem entryAddress_load_ne (f : FlatImage) :
    f.load.args.entryAddress ≠ dummyEntryAddress := by
  have hne : ∀ cpu, payloadAddress cpu ≠ dummyEntryAddress := by
    intro cpu
    cases cpu <;> decide
  exact hne f.domain

/-- A step of the monitor that keeps what the manager has written. -/
theorem System.Launching.next
    {f : FlatImage} {m : Manager} (hs : s.Launching f m)
    (h : s.step f.domain .monitor = some t) (hmonitor : t.monitor.LaunchOk f t)
    (hlt : t.monitor.launchDistance f < s.monitor.launchDistance f) :
    ∃ a t, a = Action.monitor ∧ s.step f.domain a = some t ∧ t.Launching f m ∧
      t.monitor.launchDistance f < s.monitor.launchDistance f := by
  have hsame := sameManager_of_ofCore (a := .monitor) trivial h
  exact ⟨.monitor, t, rfl, h,
    { sound := hs.sound.step h
      manager := hsame.manager.trans hs.manager
      mem := by
        rw [hsame.mem]
        exact hs.mem
      cmd := by
        rw [hsame.outbox]
        exact hs.cmd
      entryAddress := by
        rw [hsame.outbox]
        exact hs.entryAddress
      size := by
        rw [hsame.outbox]
        exact hs.size
      crc := by
        rw [hsame.outbox]
        exact hs.crc
      argument := by
        rw [hsame.outbox]
        exact hs.argument
      monitor := hmonitor }, hlt⟩

/-- The start command, up to its acknowledgement. -/
theorem System.Launching.exists_step_command
    {f : FlatImage} {m : Manager} (hvalid : f.Valid) (hs : s.Launching f m)
    {pc : CommandPc} (hpc : s.monitor = .command pc) :
    ∃ a t, a = Action.monitor ∧ s.step f.domain a = some t ∧ t.Launching f m ∧
      t.monitor.launchDistance f < s.monitor.launchDistance f := by
  have hcommand := hs.sound.command
  have hok := hs.monitor
  have hknown := hcommand.monitor
  have hstep : s.step f.domain .monitor = some (s.commandStep pc) := by
    simp only [System.step, System.monitorStep, hpc]
  rw [hpc] at hok hknown
  cases pc with
  | writeState | flushMask | flushInvalidate currmask | flushRestore currmask =>
      refine hs.next hstep trivial ?_
      rw [hpc]
      exact Nat.lt_succ_self _
  | checkEntryAddress =>
      have hne : s.ipc.managerToExecutor.payloadEntryAddress ≠ dummyEntryAddress := by
        rw [hs.entryAddress]
        exact entryAddress_load_ne f
      have hread :
          s.commandStep .checkEntryAddress =
            s.gotoMonitor (.command .readEntryAddress) := if_neg hne
      rw [hread] at hstep
      refine hs.next hstep trivial ?_
      rw [hpc]
      exact Nat.lt_succ_self _
  | readEntryAddress =>
      refine hs.next hstep hs.entryAddress ?_
      rw [hpc]
      exact Nat.lt_succ_self _
  | readSize image =>
      refine hs.next hstep ⟨hok, hs.size⟩ ?_
      rw [hpc]
      exact Nat.lt_succ_self _
  | readCrc image imageSize =>
      obtain ⟨rfl, rfl⟩ := hok
      have hverdict := verdict_start_load hvalid hs.mem
      rw [← hs.crc] at hverdict
      refine hs.next hstep hverdict ?_
      rw [hpc]
      change f.load.args.payloadSize.toNat + payloadImageHeaderSize + 2 + 6 <
        f.load.args.payloadSize.toNat + 50
      rw [payloadImageHeaderSize]
      omega
  | validate call pc =>
      cases hvalidate : pc.step call s.mem with
      | goto pc' =>
          have hnext :
              s.commandStep (.validate call pc) =
                s.gotoMonitor (.command (.validate call pc')) := by
            simp only [System.commandStep, hvalidate]
          rw [hnext] at hstep
          have hverdict : pc'.verdict call s.mem = .crcOk :=
            (verdict_step_goto call s.mem hvalidate).trans hok
          refine hs.next hstep hverdict ?_
          rw [hpc]
          exact Nat.add_lt_add_right (measure_step_goto call s.mem hvalidate) 6
      | ret resp =>
          have hresp : resp = .crcOk :=
            (verdict_step_ret call s.mem hvalidate).symm.trans hok
          have hmonitor :
              (s.commandStep (.validate call pc)).monitor =
                .command (.writeResp resp) := by
            simp only [System.commandStep, hvalidate]
          refine hs.next hstep ?_ ?_
          · rw [hmonitor]
            exact hresp
          · rw [hmonitor, hpc]
            change 5 < pc.measure + 6
            omega
  | writeResp resp =>
      obtain rfl := hok
      refine hs.next hstep ⟨rfl, rfl⟩ ?_
      rw [hpc]
      exact Nat.lt_succ_self 4
  | readAck resp =>
      refine hs.next hstep hok ?_
      rw [hpc]
      exact Nat.lt_succ_self 3
  | writeAck resp ack =>
      obtain ⟨rfl, hresp⟩ := hok
      have hsettled :
          (s.commandStep (.writeAck .crcOk ack)).mailbox.Settled :=
        Mailbox.settled_answer (Outcome.verdict .crcOk) hknown.1
      refine hs.next hstep ⟨hsettled, hresp⟩ ?_
      rw [hpc]
      exact Nat.lt_succ_self 2

/-- Each step of the undisturbed monitor goes towards the payload. -/
theorem System.Launching.exists_step
    {f : FlatImage} {m : Manager} (hvalid : f.Valid) (hs : s.Launching f m)
    (hgoal : s.monitor ≠ .el1 .payload) :
    ∃ a t, a = Action.monitor ∧ s.step f.domain a = some t ∧ t.Launching f m ∧
      t.monitor.launchDistance f < s.monitor.launchDistance f := by
  have hcommand := hs.sound.command
  have hok := hs.monitor
  have hknown := hcommand.monitor
  match hpc : s.monitor with
  | .loop .readSeq =>
      rw [hpc] at hok
      have hcounts := hcommand.counts (hcommand.cleared (by simp [hpc]))
      have hne : s.cmdSeq ≠ s.cmdAck := by
        intro heq
        have hsettled := (hcounts.eq_iff_settled (by decide) (.inr hok)).mp heq
        exact hsettled.not_pending hok
      have hstep : s.step f.domain .monitor =
          some (s.gotoMonitor (.loop (.readAck s.cmdSeq))) := by
        simp only [System.step, System.monitorStep, hpc, System.loopStep]
        rfl
      rw [← hpc]
      refine hs.next hstep hne ?_
      rw [hpc]
      exact Nat.lt_succ_self _
  | .loop (.readAck seq) =>
      rw [hpc] at hok
      have hne : seq ≠ s.ipc.executorToManager.cmdAck := hok
      have hstep : s.step f.domain .monitor =
          some (s.gotoMonitor (.loop .readCmd)) := by
        simp only [System.step, System.monitorStep, hpc, System.loopStep,
          if_pos hne]
      rw [← hpc]
      refine hs.next hstep trivial ?_
      rw [hpc]
      exact Nat.lt_succ_self _
  | .loop .readCmd =>
      have hne : Command.startPayload.code ≠ Command.noop.code := by decide
      have hstep : s.step f.domain .monitor =
          some (s.gotoMonitor (.command .writeState)) := by
        simp only [System.step, System.monitorStep, hpc, System.loopStep, hs.cmd,
          if_neg hne, if_true]
      rw [← hpc]
      refine hs.next hstep trivial ?_
      rw [hpc]
      exact Nat.lt_succ_self _
  | .command pc => exact hpc ▸ hs.exists_step_command hvalid hpc
  | .accepted pc =>
      have hstep : s.step f.domain .monitor = some (s.acceptedStep pc) := by
        simp only [System.step, System.monitorStep, hpc]
      rw [hpc] at hok
      rw [← hpc]
      cases pc with
      | readEntryAddress =>
          refine hs.next hstep hok ?_
          rw [hpc]
          exact Nat.lt_succ_self 1
      | enterEl1 address =>
          have hready := hs.sound.killReady
          rw [hpc] at hready
          refine hs.next hstep ⟨hok.1, hok.2, hready.deliverable trivial MonitorPc.noConfusion⟩ ?_
          rw [hpc]
          exact Nat.lt_succ_self 0
  | .el1 .payload => exact absurd hpc hgoal
  | .el1 .dummy | .inReset | .fiq _ | .boot | .setup _ | .publishReady | .noop _
  | .rejected | .enterDummy | .crashed =>
      rw [hpc] at hok
      exact hok.elim

/-- Undisturbed, the monitor enters the payload. -/
theorem System.Launching.reaches_entered
    {f : FlatImage} {m : Manager} (hvalid : f.Valid) (hs : s.Launching f m) :
    ∃ t, Reaches (System.step f.domain) Action.OnlyConfirms s t ∧ t.Launching f m ∧
      t.monitor = .el1 .payload := by
  obtain ⟨as, t, has, hrun, ht, hmonitor⟩ :=
    exists_run_of_measure_of
      (fun _ hl hgoal => System.Launching.exists_step hvalid hl hgoal) hs
  have hconfirms : ∀ a ∈ as, a.OnlyConfirms := by
    intro a ha
    rw [has a ha]
    trivial
  exact ⟨t, ⟨as, hconfirms, hrun⟩, ht, hmonitor⟩

/-! ## The payload confirms its start -/

/-- With the payload running and its command answered, the poll returns. -/
theorem reaches_polled
    {cpu : DomainIndex} {m : Manager} (h : s.Sound cpu)
    (hmanager : s.manager = m) (hpc : m.pc = .poll .readAck)
    (hmonitor : s.monitor = .el1 .payload) (hsettled : s.mailbox.Settled)
    (hresp : s.ipc.executorToManager.cmdResp = Response.crcOk.code)
    (hrunning : s.getState = .runningPayload) :
    Reaches (System.step cpu) Action.OnlyConfirms s (s.finish none) := by
  have hcommand := h.command
  have hcounts := hcommand.counts (hcommand.cleared (by simp [hmonitor]))
  have heq : s.cmdSeq = s.cmdAck :=
    (hcounts.eq_iff_settled (by decide) (.inl hsettled)).mpr hsettled
  have hpoll : s.manager.pc = .poll .readAck := hmanager ▸ hpc
  have hack :
      s.step cpu .manager = some (s.gotoManager (.poll (.readSeq s.cmdAck))) := by
    simp only [System.step, System.managerStep, hpoll]
    rfl
  have hseq :
      (s.gotoManager (.poll (.readSeq s.cmdAck))).step cpu .manager =
        some (s.gotoManager (.poll .readResp)) :=
    congrArg some (if_pos heq.symm)
  have hread :
      (s.gotoManager (.poll .readResp)).step cpu .manager =
        some (s.gotoManager (.poll .readState)) :=
    congrArg some (if_pos hresp)
  have hstate :
      (s.gotoManager (.poll .readState)).step cpu .manager = some (s.finish none) :=
    congrArg some (if_pos hrunning)
  exact .head hack trivial (.head hseq trivial (.head hread trivial
    (.head hstate trivial (.refl _ _ _))))

/-- The image is in place and running, and `loadAndStartPayload` has returned
success. -/
structure System.Runs (f : FlatImage) (s : System) : Prop where
  idle : s.manager.pc = .idle
  call : s.manager.call = some (.loadAndStartPayload f.image f.crc f.argument)
  result : s.manager.result = some none
  monitor : s.monitor = .el1 .payload
  state : s.getState = .runningPayload
  recoverable : s.Recoverable f.domain
  argument : s.ipc.managerToExecutor.payloadArgument = f.argument
  image : ∀ i, i < f.image.length →
    s.mem (payloadAddress f.domain + BitVec.ofNat 64 i) = f.image.getD i 0

/-- From a recoverable state, whatever has led there. -/
theorem System.Recoverable.exists_runs
    {f : FlatImage} (h : s.Sound f.domain)
    (hidle : s.manager.pc = .idle) (hs : s.Recoverable f.domain)
    (hvalid : f.Valid) :
    ∃ t, Reaches (System.step f.domain) Action.OnlyConfirms s t ∧ t.Runs f := by
  obtain ⟨as, u, has, hrun, hpc, -, -, -, hmonitor, hnoop⟩ :=
    hs.exists_terminated h hidle
  have hterminates : ∀ a ∈ Action.call .terminatePayload :: as, a.OnlyConfirms :=
    List.forall_mem_cons.mpr ⟨trivial, fun a ha => (has a ha).onlyConfirms⟩
  obtain ⟨v, hacknowledged, hv⟩ :=
    exists_awaitsLoad (h.run hrun) hpc hmonitor hnoop
  obtain ⟨w, hissued, hw⟩ := hv.reaches_issued
  obtain ⟨x, hentered, hx, hpayload⟩ := hw.launching.reaches_entered hvalid
  have hok := hx.monitor
  rw [hpayload] at hok
  obtain ⟨hsettled, hresp, hdeliverable⟩ := hok
  have hconfirmed :
      x.step f.domain (.smc (smcCall smcNotifyPayloadStarted 0 0)) =
        some (x.smcStep f.domain (smcCall smcNotifyPayloadStarted 0 0)) := by
    simp only [System.step, System.smc, hpayload]
  have hframe :=
    System.smcStep_frame f.domain x (smcCall smcNotifyPayloadStarted 0 0)
  have hrun' :
      Reaches (System.step f.domain) Action.OnlyConfirms s
        (x.smcStep f.domain (smcCall smcNotifyPayloadStarted 0 0)) :=
    Reaches.trans ⟨_, hterminates, hrun⟩ (hacknowledged.trans (hissued.trans
      (hentered.trans (.head hconfirmed rfl (.refl _ _ _)))))
  have hrunning :
      (x.smcStep f.domain (smcCall smcNotifyPayloadStarted 0 0)).getState =
        .runningPayload := by
    apply System.getState_of_code
    · rw [hframe.manager]
      exact hx.sound.state.started (by simp [hpayload])
    · rfl
  have hmanager :
      (x.smcStep f.domain (smcCall smcNotifyPayloadStarted 0 0)).manager =
        w.manager := hframe.manager.trans hx.manager
  have hreturned :=
    reaches_polled (h.reaches hrun') hmanager hw.pc rfl hsettled hresp hrunning
  refine ⟨_, hrun'.trans hreturned, rfl, ?_, rfl, rfl, hrunning,
    ⟨MonitorPc.noConfusion, MonitorPc.noConfusion, fun _ => hdeliverable⟩,
    hx.argument, ?_⟩
  · change (x.smcStep f.domain (smcCall smcNotifyPayloadStarted 0 0)).manager.call = _
    rw [hmanager]
    exact hw.call
  · intro i hi
    obtain ⟨mem, hmem⟩ := hx.mem
    have hlength := f.length_lt
    have hstored :=
      applyStores_imageStores mem (payloadAddress f.domain) hlength.le
        (hi.trans hlength)
    change x.mem (payloadAddress f.domain + BitVec.ofNat 64 i) = _
    rw [hmem]
    refine hstored.trans ?_
    rw [List.getD_eq_getElem _ _ hi, List.getD_eq_getElem _ _ hi]

/-- If payloads enable only what they have configured, then from every recoverable
state with the manager idle, and for every valid image, some run ends with that
image in place and running, `loadAndStartPayload` having returned success, in a
recoverable state again.  The payload at most confirms its start in that run, and
in no such run does an interrupt but the kill interrupt get to the monitor. -/
theorem valid_image_can_run
    {f : FlatImage}
    (h : Reachable (System.step f.domain) (System.QuietInitial f.domain)
      (UsesOwnInterrupts f.domain) s)
    (hidle : s.manager.pc = .idle) (hs : s.Recoverable f.domain)
    (hvalid : f.Valid) :
    (∀ as t, (∀ a ∈ as, a.OnlyConfirms) →
      run (System.step f.domain) s as = some t → t.OnlyKillReaches f.domain) ∧
    ∃ as t, (∀ a ∈ as, a.OnlyConfirms) ∧
      run (System.step f.domain) s as = some t ∧
      t.manager.pc = .idle ∧
      t.manager.call = some (.loadAndStartPayload f.image f.crc f.argument) ∧
      t.manager.result = some none ∧ t.monitor = .el1 .payload ∧
      t.getState = .runningPayload ∧ t.Recoverable f.domain ∧
      t.ipc.managerToExecutor.payloadArgument = f.argument ∧
      ∀ i, i < f.image.length →
        t.mem (payloadAddress f.domain + BitVec.ofNat 64 i) =
          f.image.getD i 0 := by
  have hsound : s.Sound f.domain :=
    sound_of_reachable (h.mono_init fun _ hs => hs.toInitial)
  obtain ⟨t, ⟨as, has, hrun⟩, ht⟩ := hs.exists_runs hsound hidle hvalid
  refine ⟨fun as t has hrun => ?_, as, t, has, hrun, ht.idle, ht.call, ht.result,
    ht.monitor, ht.state, ht.recoverable, ht.argument, ht.image⟩
  exact onlyKillReaches_of_run (othersInv_of_reachable h) has hrun

/-- A header of the current version and nothing else. -/
def bareHeader : FlatImage where
  domain := .cpu1
  image := List.replicate 8 0 ++ [0x42, 0x6d, 0x62, 0x6f, 2, 0] ++ List.replicate 18 0
  crc := Crc.crc32
    (List.replicate 8 0 ++ [0x42, 0x6d, 0x62, 0x6f, 2, 0] ++ List.replicate 18 0)
  argument := 7
  nonempty := by decide
  length_le := by decide

theorem bareHeader_valid : bareHeader.Valid :=
  ⟨rfl, by decide, by decide, by decide, by decide⟩

/-- It can be started after the first startup. -/
theorem valid_image_can_run_bareHeader :
    ∃ as t, run (System.step .cpu1) System.powerOn as = some t ∧
      t.manager.result = some none ∧ t.getState = .runningPayload := by
  obtain ⟨s, hrun, hreach, hidle, hmonitor⟩ :=
    exists_run_of_restrict_run (System.step .cpu1) (UsesOwnInterrupts .cpu1)
      startupSchedule (fun s => s.manager.pc = .idle ∧ s.monitor = .loop .readSeq)
      (System.powerOn_quietInitial .cpu1) (by decide +kernel)
  have hrecoverable : s.Recoverable bareHeader.domain := by
    rw [System.Recoverable, hmonitor]
    exact ⟨MonitorPc.noConfusion, MonitorPc.noConfusion, MonitorPc.noConfusion⟩
  obtain ⟨-, as, t, -, hruns, -, -, hresult, -, hrunning, -⟩ :=
    valid_image_can_run hreach hidle hrecoverable bareHeader_valid
  refine ⟨startupSchedule ++ as, t, ?_, hresult, hrunning⟩
  rw [run_append, hrun, Option.bind_some]
  exact hruns

end Startable

end Bmboot
