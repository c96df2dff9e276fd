import Bmboot.System.Parameters

/-!
# The call in progress

The arguments at a program point of the manager are those of its call, and a
call issues at most one command, that of `startPayloadAt`.
-/

namespace Bmboot

open StepSystem

/-- The error by which `startPayloadAt` reports a response. -/
def Response.rejection : Response → Option ErrorCode
  | .crcOk => none
  | .crcMismatched => some .payloadChecksumMismatch
  | .imageMalformed => some .payloadImageMalformed
  | .abiIncompatible => some .payloadAbiIncompatible

theorem Response.code_injective {r r' : Response} (h : r.code = r'.code) :
    r = r' := by
  cases r <;> cases r' <;> first | rfl | exact absurd h (by decide)

/-- The load that a loader performs. -/
def Call.load (cpu : DomainIndex) : Call → Option Load
  | .loadAndStartPayload binary crc argument =>
      some (flatLoad cpu binary crc argument)
  | .loadElfPayload elf argument => some (elfLoad elf argument)
  | _ => none

/-- The arguments with which a call reaches `startPayloadAt`. -/
def Call.startArgs (cpu : DomainIndex) : Call → Option StartArgs
  | .startDummyPayload => some dummyArgs
  | c => (c.load cpu).map Load.args

/-- The program point belongs to the call, and the call has issued a command
only if it is polling for the answer. -/
def ManagerPc.CallOk (cpu : DomainIndex) (s : System) : ManagerPc → Prop
  | .idle => True
  | .load l _ =>
      (∃ c, s.manager.call = some c ∧ c.load cpu = some l) ∧
        s.managerLog.issued.length = s.managerLog.issuedAtCall
  | .start args _ =>
      (∃ c, s.manager.call = some c ∧ c.startArgs cpu = some args) ∧
        s.managerLog.issued.length = s.managerLog.issuedAtCall
  | .poll _ =>
      ∃ c args, s.manager.call = some c ∧ c.startArgs cpu = some args ∧
        s.managerLog.issued.getLast? = some args ∧
        s.managerLog.issued.length = s.managerLog.issuedAtCall + 1
  | .ensure cntfrq =>
      s.manager.call = some (.ensureReadyToLoadPayload cntfrq) ∧
        s.managerLog.issued.length = s.managerLog.issuedAtCall
  | .startup _ _ | .terminate _ | .await =>
      (∃ c, s.manager.call = some c ∧ c.startArgs cpu = none) ∧
        s.managerLog.issued.length = s.managerLog.issuedAtCall

structure CallInv (cpu : DomainIndex) (s : System) : Prop where
  pc : s.manager.pc.CallOk cpu s
  idle : s.manager.result ≠ none → s.manager.pc = .idle

section Invariant

variable {cpu : DomainIndex} {s t : System} {a : Action}

theorem CallInv.initial (h : s.Initial) : CallInv cpu s where
  pc := by simp [h.pc, ManagerPc.CallOk]
  idle := by simp [h.result]

theorem CallInv.result_none
    (hs : CallInv cpu s) (hpc : s.manager.pc ≠ .idle) :
    s.manager.result = none := by
  by_contra hne
  exact hpc (hs.idle hne)

theorem CallInv.finish (s : System) (r : MaybeError) :
    CallInv cpu (s.finish r) :=
  ⟨trivial, fun _ => rfl⟩

theorem CallInv.goOn
    (hs : CallInv cpu s) (hpc : s.manager.pc ≠ .idle)
    (hresult : t.manager.result = s.manager.result)
    (hok : t.manager.pc.CallOk cpu t) : CallInv cpu t := by
  refine ⟨hok, ?_⟩
  rw [hresult, hs.result_none hpc]
  exact absurd rfl

theorem CallInv.callStep (c : Call) : CallInv cpu (s.beginCall cpu c) := by
  refine ⟨?_, absurd rfl⟩
  cases c with
  | ensureReadyToLoadPayload cntfrq => exact ⟨rfl, rfl⟩
  | _ => exact ⟨⟨_, rfl, rfl⟩, rfl⟩

theorem CallInv.startupStep
    (hs : CallInv cpu s) {cntfrq : BitVec 32} {pc : StartupPc}
    (hpc : s.manager.pc = .startup cntfrq pc) :
    CallInv cpu (s.startupStep cntfrq pc) := by
  have hok := hs.pc
  rw [hpc] at hok
  have hidle : s.manager.pc ≠ .idle := by simp [hpc]
  cases pc with
  | guard =>
      simp only [System.startupStep]
      split_ifs
      · exact .finish s _
      · exact hs.goOn hidle rfl hok
  | bootCore =>
      simp only [System.startupStep]
      split
      · exact hs.goOn hidle rfl hok
      · exact .finish s _
  | _ => exact hs.goOn hidle rfl hok

theorem CallInv.ensureStep
    (hs : CallInv cpu s) {cntfrq : BitVec 32}
    (hpc : s.manager.pc = .ensure cntfrq) :
    CallInv cpu (s.ensureStep cntfrq) := by
  have hok := hs.pc
  rw [hpc] at hok
  have hidle : s.manager.pc ≠ .idle := by simp [hpc]
  simp only [System.ensureStep]
  split_ifs
  · exact hs.goOn hidle rfl ⟨⟨_, hok.1, rfl⟩, hok.2⟩
  · exact .finish s _
  · exact hs.goOn hidle rfl ⟨⟨_, hok.1, rfl⟩, hok.2⟩
  · exact .finish s _

theorem CallInv.loadStep
    (hs : CallInv cpu s) {load : Load} {pc : LoadPc}
    (hpc : s.manager.pc = .load load pc) :
    CallInv cpu (s.loadStep load pc) := by
  have hok := hs.pc
  rw [hpc] at hok
  have hidle : s.manager.pc ≠ .idle := by simp [hpc]
  match pc with
  | .checkState =>
      simp only [System.loadStep]
      split_ifs
      · exact .finish s _
      · exact hs.goOn hidle rfl hok
  | .map =>
      simp only [System.loadStep]
      split
      · exact .finish s _
      · exact hs.goOn hidle rfl hok
  | .store ((address, b) :: rest) => exact hs.goOn hidle rfl hok
  | .store [] =>
      simp only [System.loadStep]
      split
      · exact .finish s _
      · refine hs.goOn hidle rfl ⟨?_, hok.2⟩
        obtain ⟨c, hcall, hload⟩ := hok.1
        refine ⟨c, hcall, ?_⟩
        cases c with
        | loadAndStartPayload binary crc argument =>
            cases hload
            rfl
        | loadElfPayload elf argument =>
            cases hload
            rfl
        | _ => cases hload

theorem CallInv.startStep
    (hs : CallInv cpu s) {args : StartArgs} {pc : StartPc}
    (hpc : s.manager.pc = .start args pc) :
    CallInv cpu (s.startStep args pc) := by
  have hok := hs.pc
  rw [hpc] at hok
  have hidle : s.manager.pc ≠ .idle := by simp [hpc]
  cases pc with
  | checkState =>
      simp only [System.startStep]
      split_ifs
      · exact .finish s _
      · exact hs.goOn hidle rfl hok
  | readSeq ack =>
      simp only [System.startStep]
      split_ifs
      · exact .finish s _
      · exact hs.goOn hidle rfl hok
  | writeSeq seq =>
      obtain ⟨⟨c, hcall, hargs⟩, hlen⟩ := hok
      refine hs.goOn hidle rfl ⟨c, args, hcall, hargs, ?_, ?_⟩
      · simp [System.startStep, System.gotoManager, System.setOutbox]
      · simp [System.startStep, System.gotoManager, System.setOutbox, hlen]
  | _ => exact hs.goOn hidle rfl hok

theorem CallInv.pollStep
    (hs : CallInv cpu s) {pc : PollPc} (hpc : s.manager.pc = .poll pc) :
    CallInv cpu (s.pollStep pc) := by
  have hok := hs.pc
  rw [hpc] at hok
  have hidle : s.manager.pc ≠ .idle := by simp [hpc]
  cases pc with
  | readAck => exact hs.goOn hidle rfl hok
  | readSeq ack =>
      simp only [System.pollStep]
      split_ifs <;> exact hs.goOn hidle rfl hok
  | readResp =>
      simp only [System.pollStep]
      split_ifs
      · exact hs.goOn hidle rfl hok
      all_goals exact .finish s _
  | readState =>
      simp only [System.pollStep]
      split_ifs
      · exact .finish s _
      · exact .finish s _
      · exact hs.goOn hidle rfl hok

theorem CallInv.terminateStep
    (hs : CallInv cpu s) {pc : TerminatePc}
    (hpc : s.manager.pc = .terminate pc) :
    CallInv cpu (s.terminateStep pc) := by
  have hok := hs.pc
  rw [hpc] at hok
  have hidle : s.manager.pc ≠ .idle := by simp [hpc]
  cases pc with
  | guard =>
      simp only [System.terminateStep]
      split_ifs
      · exact .finish s _
      · exact hs.goOn hidle rfl hok
  | writeCmd => exact hs.goOn hidle rfl hok
  | sendIpi => exact hs.goOn hidle rfl hok

theorem CallInv.awaitStep (hs : CallInv cpu s) : CallInv cpu s.awaitStep := by
  simp only [System.awaitStep]
  split_ifs
  · exact .finish s _
  · exact hs

theorem CallInv.sameManager
    (hs : CallInv cpu s) (hsame : System.SameManager s t) :
    CallInv cpu t where
  pc := by
    have hok := hs.pc
    rw [hsame.manager]
    cases h : s.manager.pc <;> rw [h] at hok <;>
      simp only [ManagerPc.CallOk, hsame.manager, hsame.managerLog] at hok ⊢ <;>
      exact hok
  idle := by
    rw [hsame.manager]
    exact hs.idle

theorem CallInv.step
    (hs : CallInv cpu s) (h : s.step cpu a = some t) : CallInv cpu t :=
  System.step_cases_manager (P := fun _ t => CallInv cpu t) h
    (fun c _ => .callStep c) (fun _ _ hpc => hs.startupStep hpc)
    (fun _ hpc => hs.ensureStep hpc) (fun _ _ hpc => hs.loadStep hpc)
    (fun _ _ hpc => hs.startStep hpc) (fun _ hpc => hs.pollStep hpc)
    (fun _ hpc => hs.terminateStep hpc) (fun _ => hs.awaitStep)
    (fun _ _ => .finish s _) (fun _ => .finish s _) (fun _ => .finish s _)
    (fun _ _ _ _ hsame => hs.sameManager hsame)

theorem callInv_of_reachable {allowed : System → Action → Prop}
    (h : Reachable (System.step cpu) System.Initial allowed s) :
    CallInv cpu s :=
  h.invariant (fun _ hs => .initial hs) fun _ _ _ _ hs _ ht => hs.step ht

end Invariant

/-! ## Returns -/

/-- The points at which a call returns, and what it returns there. -/
inductive System.Return (s : System) : MaybeError → Prop
  | startup {cntfrq pc} (hpc : s.manager.pc = .startup cntfrq pc) {e}
      (he : e = .badDomainState ∨ e = .hwResourceUnavailable) :
      Return s (some e)
  | ensureReady {cntfrq} (hpc : s.manager.pc = .ensure cntfrq)
      (hready : s.getState = .monitorReady) : Return s none
  | ensureRefused {cntfrq} (hpc : s.manager.pc = .ensure cntfrq) :
      Return s (some .badDomainState)
  | loadNotReady {load} (hpc : s.manager.pc = .load load .checkState)
      (hready : s.getState ≠ .monitorReady) : Return s (some .badDomainState)
  | loadRefused {load e} (hpc : s.manager.pc = .load load .map)
      (he : load.refusal = some e) : Return s (some e)
  | loadFailed {load e} (hpc : s.manager.pc = .load load (.store []))
      (he : load.error = some e) : Return s (some e)
  | startNotReady {args} (hpc : s.manager.pc = .start args .checkState)
      (hready : s.getState ≠ .monitorReady) : Return s (some .badDomainState)
  | startPending {args ack} (hpc : s.manager.pc = .start args (.readSeq ack))
      (hack : ack ≠ s.cmdSeq) : Return s (some .badDomainState)
  | rejected (hpc : s.manager.pc = .poll .readResp) {resp : Response} {e}
      (hresp : s.ipc.executorToManager.cmdResp = resp.code)
      (he : resp.rejection = some e) : Return s (some e)
  | unknownResp (hpc : s.manager.pc = .poll .readResp)
      (hresp : ∀ resp : Response,
        s.ipc.executorToManager.cmdResp ≠ resp.code) :
      Return s (some .unknownError)
  | started (hpc : s.manager.pc = .poll .readState)
      (hstate : s.getState = .runningPayload) : Return s none
  | crashed (hpc : s.manager.pc = .poll .readState)
      (hstate : s.getState = .crashedPayload) :
      Return s (some .payloadCrashedDuringStartup)
  | startTimedOut (hpc : s.manager.pc = .poll .readAck) :
      Return s (some .payloadStartTimedOut)
  | terminateRefused {pc} (hpc : s.manager.pc = .terminate pc) :
      Return s (some .badDomainState)
  | awaitReady (hpc : s.manager.pc = .await)
      (hready : s.getState = .monitorReady) : Return s none
  | awaitTimedOut (hpc : s.manager.pc = .await) :
      Return s (some .monitorStartTimedOut)
  | failed {e} (he : e ∈ System.failures s.manager.pc) : Return s (some e)

section Returns

variable {cpu : DomainIndex} {s t : System} {a : Action} {r : MaybeError}

/-- A step that gives the call its result returns from it. -/
theorem System.step_return
    (h : s.step cpu a = some t) (hnone : s.manager.result = none)
    (hr : t.manager.result = some r) : s.Return r ∧ t = s.finish r := by
  have hgoOn : ∀ {u : System}, u.manager.result = s.manager.result →
      u.manager.result = some r → s.Return r ∧ u = s.finish r := by
    intro u hsame hu
    rw [hsame, hnone] at hu
    cases hu
  have hfinish : ∀ {r' : MaybeError}, s.Return r' →
      (s.finish r').manager.result = some r →
        s.Return r ∧ s.finish r' = s.finish r := by
    rintro r' hreturn ⟨⟩
    exact ⟨hreturn, rfl⟩
  revert hr
  refine System.step_cases_manager
    (P := fun _ t => t.manager.result = some r → s.Return r ∧ t = s.finish r)
    h (by rintro _ _ ⟨⟩) ?startup ?ensure ?load ?start ?poll ?terminate ?await
    (fun e he => hfinish (.failed he))
    (fun hpc => hfinish (.startTimedOut hpc))
    (fun hpc => hfinish (.awaitTimedOut hpc))
    (fun _ _ _ _ hsame => hgoOn (by rw [hsame.manager]))
  case startup =>
    intro cntfrq pc hpc
    cases pc with
    | guard =>
        simp only [System.startupStep]
        split_ifs
        · exact hfinish (.startup hpc (.inl rfl))
        · exact hgoOn rfl
    | bootCore =>
        simp only [System.startupStep]
        split
        · exact hgoOn rfl
        · exact hfinish (.startup hpc (.inr rfl))
    | _ => exact hgoOn rfl
  case ensure =>
    intro cntfrq hpc
    simp only [System.ensureStep]
    split_ifs with _ hready
    · exact hgoOn rfl
    · exact hfinish (.ensureReady hpc hready)
    · exact hgoOn rfl
    · exact hfinish (.ensureRefused hpc)
  case load =>
    intro load pc hpc
    cases pc with
    | checkState =>
        simp only [System.loadStep]
        split_ifs with hready
        · exact hfinish (.loadNotReady hpc hready)
        · exact hgoOn rfl
    | map =>
        simp only [System.loadStep]
        split
        next e he => exact hfinish (.loadRefused hpc he)
        · exact hgoOn rfl
    | store stores =>
        cases stores with
        | cons p rest => exact hgoOn rfl
        | nil =>
            simp only [System.loadStep]
            split
            next e he => exact hfinish (.loadFailed hpc he)
            · exact hgoOn rfl
  case start =>
    intro args pc hpc
    cases pc with
    | checkState =>
        simp only [System.startStep]
        split_ifs with hready
        · exact hfinish (.startNotReady hpc hready)
        · exact hgoOn rfl
    | readSeq ack =>
        simp only [System.startStep]
        split_ifs with hack
        · exact hfinish (.startPending hpc hack)
        · exact hgoOn rfl
    | _ => exact hgoOn rfl
  case poll =>
    intro pc hpc
    cases pc with
    | readAck => exact hgoOn rfl
    | readSeq ack =>
        simp only [System.pollStep]
        split_ifs <;> exact hgoOn rfl
    | readResp =>
        simp only [System.pollStep]
        split_ifs with hok hmismatched hmalformed hincompatible
        · exact hgoOn rfl
        · exact hfinish (.rejected hpc hmismatched rfl)
        · exact hfinish (.rejected hpc hmalformed rfl)
        · exact hfinish (.rejected hpc hincompatible rfl)
        · refine hfinish (.unknownResp hpc ?_)
          intro resp
          cases resp <;> assumption
    | readState =>
        simp only [System.pollStep]
        split_ifs with hrunning hcrashed
        · exact hfinish (.started hpc hrunning)
        · exact hfinish (.crashed hpc hcrashed)
        · exact hgoOn rfl
  case terminate =>
    intro pc hpc
    cases pc with
    | guard =>
        simp only [System.terminateStep]
        split_ifs
        · exact hfinish (.terminateRefused hpc)
        · exact hgoOn rfl
    | writeCmd => exact hgoOn rfl
    | sendIpi => exact hgoOn rfl
  case await =>
    intro hpc
    simp only [System.awaitStep]
    split_ifs with hready
    · exact hfinish (.awaitReady hpc hready)
    · exact hgoOn rfl

/-- Once the call has returned, the manager rests until the next one. -/
theorem CallInv.sameManager_of_returned
    (hs : CallInv cpu s) (h : s.step cpu a = some t)
    (hr : s.manager.result ≠ none) (hr' : t.manager.result ≠ none) :
    System.SameManager s t := by
  have hidle := hs.idle hr
  revert hr'
  refine System.step_cases_manager
    (P := fun _ t => t.manager.result ≠ none → System.SameManager s t) h
    (fun c _ => absurd rfl) (fun _ _ hpc => ?_) (fun _ hpc => ?_)
    (fun _ _ hpc => ?_) (fun _ _ hpc => ?_) (fun _ hpc => ?_)
    (fun _ hpc => ?_) (fun hpc => ?_) (fun e he => ?fail) (fun hpc => ?_)
    (fun hpc => ?_) (fun _ _ _ _ hsame _ => hsame)
  case fail =>
    rw [hidle] at he
    cases he
  all_goals
    rw [hidle] at hpc
    cases hpc

/-- The errors of a loader. -/
theorem Call.load_errors {c : Call} {load : Load} {e : ErrorCode}
    (hload : c.load cpu = some load)
    (he : load.refusal = some e ∨ load.error = some e) :
    e = .programTooLarge ∨ e = .mmapFailed := by
  cases c with
  | loadAndStartPayload binary crc argument =>
      cases hload
      simp only [flatLoad] at he
      split_ifs at he <;> simp_all
  | loadElfPayload elf argument =>
      cases hload
      simp only [elfLoad] at he
      split_ifs at he <;> simp_all
  | _ => cases hload

theorem mem_failures {e : ErrorCode} {pc : ManagerPc}
    (he : e ∈ System.failures pc) :
    e ∈ [ErrorCode.configurationFileError, .devMemAccessFailed, .mmapFailed,
      .programTooLarge] := by
  cases pc with
  | startup cntfrq pc =>
      cases pc with
      | guard => exact he
      | bootCore =>
          rw [List.mem_singleton.mp he]
          decide
      | _ => cases he
  | load load pc =>
      cases pc with
      | map => rcases List.mem_pair.mp he with rfl | rfl <;> decide
      | _ => cases he
  | terminate pc =>
      cases pc with
      | guard =>
          rw [List.mem_singleton.mp he]
          decide
      | _ => cases he
  | _ => cases he

theorem CallInv.load_errors {load : Load} {pc : LoadPc} {e : ErrorCode}
    (hs : CallInv cpu s) (hpc : s.manager.pc = .load load pc)
    (he : load.refusal = some e ∨ load.error = some e) :
    e = .programTooLarge ∨ e = .mmapFailed := by
  have hok := hs.pc
  rw [hpc] at hok
  obtain ⟨⟨c, -, hc⟩, -⟩ := hok
  exact Call.load_errors hc he

/-- A crash during startup is only returned for the state word. -/
theorem System.Return.of_crashed
    (h : s.Return (some .payloadCrashedDuringStartup)) (hcall : CallInv cpu s) :
    s.manager.pc = .poll .readState ∧ s.getState = .crashedPayload := by
  cases h with
  | crashed hpc hstate => exact ⟨hpc, hstate⟩
  | startup hpc herror => rcases herror with he | he <;> cases he
  | loadRefused hpc herror =>
      rcases hcall.load_errors hpc (.inl herror) with he | he <;> cases he
  | loadFailed hpc herror =>
      rcases hcall.load_errors hpc (.inr herror) with he | he <;> cases he
  | rejected hpc hresp hrejection =>
      rename_i resp
      cases resp <;> cases hrejection
  | failed hfail => exact absurd (mem_failures hfail) (by decide)

/-- The points at which a call returns `bad_domain_state`. -/
inductive System.Refuses (s : System) : Prop
  | startup {cntfrq pc} (hpc : s.manager.pc = .startup cntfrq pc)
  | ensure {cntfrq} (hpc : s.manager.pc = .ensure cntfrq)
  | loadNotReady {load} (hpc : s.manager.pc = .load load .checkState)
      (hready : s.getState ≠ .monitorReady)
  | startNotReady {args} (hpc : s.manager.pc = .start args .checkState)
      (hready : s.getState ≠ .monitorReady)
  | startPending {args ack} (hpc : s.manager.pc = .start args (.readSeq ack))
      (hack : ack ≠ s.cmdSeq)
  | terminate {pc} (hpc : s.manager.pc = .terminate pc)

theorem System.Return.of_badDomainState
    (h : s.Return (some .badDomainState)) (hcall : CallInv cpu s) :
    s.Refuses := by
  cases h with
  | startup hpc _ => exact .startup hpc
  | ensureRefused hpc => exact .ensure hpc
  | loadNotReady hpc hready => exact .loadNotReady hpc hready
  | startNotReady hpc hready => exact .startNotReady hpc hready
  | startPending hpc hack => exact .startPending hpc hack
  | terminateRefused hpc => exact .terminate hpc
  | loadRefused hpc herror =>
      rcases hcall.load_errors hpc (.inl herror) with he | he <;> cases he
  | loadFailed hpc herror =>
      rcases hcall.load_errors hpc (.inr herror) with he | he <;> cases he
  | rejected hpc hresp hrejection =>
      rename_i resp
      cases resp <;> cases hrejection
  | failed hfail => exact absurd (mem_failures hfail) (by decide)

end Returns

end Bmboot
