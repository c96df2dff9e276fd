import Bmboot.Lib.StepSystem
import Bmboot.Monitor.Smc

/-!
# Crash information

`reportCrash` (`smc_handlers.cpp`) one store at a time, beside a manager that
waits for the crash and then calls `getCrashInfo` (`domain.cpp`).
-/

namespace Bmboot

open StepSystem

/-! ## The stores of a report -/

def faultDescSize : ℕ := 32

inductive ReportStore
  | faultPc (address : BitVec 64)
  | faultEl (el : BitVec 32)
  | faultDesc (i : ℕ) (byte : UInt8)
  | state (word : BitVec 32)

def IpcBlock.setFaultDesc (ipc : IpcBlock) (desc : List UInt8) : IpcBlock :=
  { ipc with
    executorToManager := { ipc.executorToManager with faultDesc := desc } }

def ReportStore.apply (ipc : IpcBlock) : ReportStore → IpcBlock
  | .faultPc address =>
      { ipc with
        executorToManager := { ipc.executorToManager with faultPc := address } }
  | .faultEl el =>
      { ipc with
        executorToManager := { ipc.executorToManager with faultEl := el } }
  | .faultDesc i byte =>
      ipc.setFaultDesc (ipc.executorToManager.faultDesc.set i byte)
  | .state word =>
      { ipc with
        executorToManager := { ipc.executorToManager with state := word } }

def ReportStore.isState : ReportStore → Bool
  | .state _ => true
  | _ => false

def CrashingEntity.crashed : CrashingEntity → DomainState
  | .payload => .crashedPayload
  | .monitor => .crashedMonitor

/-- The arguments of `reportCrash`, and the block as earlier crashes have left
it. -/
structure ReportCall where
  who : CrashingEntity
  desc : List UInt8
  address : BitVec 64
  ipc : IpcBlock
  nulFree : 0 ∉ desc
  size : ipc.executorToManager.faultDesc.length = faultDescSize

namespace ReportCall

variable (r : ReportCall)

/-- What `strncpy` stores. -/
def descBytes : List UInt8 := strncpy faultDescSize fun i => r.desc.getD i 0

/-- The stores of `reportCrash` in program order. -/
def stores : List ReportStore :=
  [.faultPc r.address, .faultEl currentEl3] ++
    r.descBytes.mapIdx .faultDesc ++ [.state r.who.crashed.code]

end ReportCall

/-! ## The manager -/

/-- `CrashInfo` (`domain.hpp`). -/
structure CrashInfo where
  pc : BitVec 64
  desc : List UInt8
  deriving DecidableEq

/-- Where the manager stands: it waits for the crash, then reads the block for
`getCrashInfo`. -/
inductive InfoPc
  | awaitCrash
  | readPc
  | readDesc (pc : BitVec 64) (copied : List UInt8)
  | done (info : CrashInfo)
  deriving DecidableEq

/-- One step of the manager.  The string is constructed from all bytes of the
field. -/
def InfoPc.step (ipc : IpcBlock) : InfoPc → Option InfoPc
  | .awaitCrash =>
      match DomainState.ofRaw ipc.executorToManager.state with
      | .crashedPayload | .crashedMonitor => some .readPc
      | _ => some .awaitCrash
  | .readPc => some (.readDesc ipc.executorToManager.faultPc [])
  | .readDesc pc copied =>
      if copied.length < faultDescSize then
        some (.readDesc pc
          (copied ++ [ipc.executorToManager.faultDesc.getD copied.length 0]))
      else some (.done { pc := pc, desc := copied })
  | .done _ => none

/-! ## Both together -/

/-- The block, the stores still to be executed, and the manager.  `published`
says that this crash has stored its state, which the manager does not see: an
earlier crash may have left the same state. -/
structure Reporting where
  ipc : IpcBlock
  pending : List ReportStore
  published : Bool
  manager : InfoPc

inductive ReportParty
  | monitor
  | manager
  deriving DecidableEq

/-- The manager takes no notice of a state left by an earlier crash. -/
def Reporting.step (s : Reporting) : ReportParty → Option Reporting
  | .monitor =>
      match s.pending with
      | [] => none
      | store :: pending =>
          some
            { s with
              ipc := store.apply s.ipc
              pending := pending
              published := s.published || store.isState }
  | .manager =>
      if s.manager = .awaitCrash ∧ s.published = false then some s
      else (s.manager.step s.ipc).map fun pc => { s with manager := pc }

def ReportCall.start (r : ReportCall) : Reporting where
  ipc := r.ipc
  pending := r.stores
  published := false
  manager := .awaitCrash

/-- The reading matches the report: the description is cut at 32 characters, and
nothing is added. -/
def ReportCall.ReadBack (r : ReportCall) (info : CrashInfo) : Prop :=
  info.pc = r.address ∧ info.desc = r.desc.take faultDescSize

/-- What `getCrashInfo` returns matches the report in every run. -/
def ReportCall.AlwaysReadBack (r : ReportCall) : Prop :=
  ∀ s info, Reachable Reporting.step (· = r.start) anyStep s →
    s.manager = .done info → r.ReadBack info

namespace ReportCall

variable (r : ReportCall)

/-! ## What the stores leave -/

theorem length_descBytes : r.descBytes.length = faultDescSize :=
  length_strncpy _ _

theorem descBytes_eq : r.descBytes = r.desc.take faultDescSize ++
    List.replicate (faultDescSize - r.desc.length) 0 :=
  strncpy_eq_append r.nulFree _

/-- The stores of `strncpy` fill the field from the front. -/
theorem foldl_faultDesc
    (bytes : List UInt8) (k : ℕ) (ipc : IpcBlock)
    (h : k + bytes.length = ipc.executorToManager.faultDesc.length) :
    (bytes.mapIdx fun i b => ReportStore.faultDesc (k + i) b).foldl
        ReportStore.apply ipc =
      ipc.setFaultDesc (ipc.executorToManager.faultDesc.take k ++ bytes) := by
  induction bytes generalizing k ipc with
  | nil =>
      have hall : ipc.executorToManager.faultDesc.take k =
          ipc.executorToManager.faultDesc :=
        List.take_of_length_le (Nat.le_of_eq h.symm)
      simp [hall, IpcBlock.setFaultDesc]
  | cons b bytes ih =>
      rw [List.length_cons] at h
      have hlt : k < ipc.executorToManager.faultDesc.length := by omega
      have hshift : (fun i b => ReportStore.faultDesc (k + (i + 1)) b) =
          fun i b => ReportStore.faultDesc (k + 1 + i) b := by
        funext i b
        rw [Nat.add_assoc, Nat.add_comm 1 i]
      have htake : (ipc.executorToManager.faultDesc.set k b).take (k + 1) =
          ipc.executorToManager.faultDesc.take k ++ [b] := by
        rw [List.take_add_one, List.take_set_of_le (Nat.le_refl k)]
        simp [hlt]
      have hstep := ih (k + 1) (ReportStore.apply ipc (.faultDesc k b))
        (by simp only [ReportStore.apply, IpcBlock.setFaultDesc,
              List.length_set]; omega)
      rw [List.mapIdx_cons, List.foldl_cons, Nat.add_zero, hshift, hstep]
      simp only [ReportStore.apply, IpcBlock.setFaultDesc, htake,
        List.append_assoc, List.singleton_append]

/-- All the stores together are what `reportCrash` does. -/
theorem foldl_stores : r.stores.foldl ReportStore.apply r.ipc =
    r.ipc.reportCrash r.who (fun i => r.desc.getD i 0) r.address := by
  have hfield := foldl_faultDesc r.descBytes 0
    (ReportStore.apply (ReportStore.apply r.ipc (.faultPc r.address))
      (.faultEl currentEl3))
    (by rw [Nat.zero_add, length_descBytes]; exact r.size.symm)
  simp only [Nat.zero_add] at hfield
  rw [stores, List.foldl_append, List.foldl_append]
  simp only [List.foldl_cons, List.foldl_nil]
  rw [hfield]
  cases hwho : r.who with
  | monitor => rfl
  | payload => rfl

/-! ## Runs -/

/-- Before the state is stored, nothing else is left to do. -/
theorem nil_of_any_isState
    {done pending : List ReportStore} (h : done ++ pending = r.stores)
    (hpublished : done.any ReportStore.isState = true) : pending = [] := by
  have hfront : ([ReportStore.faultPc r.address, .faultEl currentEl3] ++
      r.descBytes.mapIdx ReportStore.faultDesc).any ReportStore.isState =
        false := by
    rw [List.any_eq_false]
    intro store hstore
    rcases List.mem_append.mp hstore with hmem | hmem
    · rcases List.mem_pair.mp hmem with rfl | rfl
      · exact Bool.false_ne_true
      · exact Bool.false_ne_true
    · obtain ⟨i, hi, rfl⟩ := List.mem_mapIdx.mp hmem
      exact Bool.false_ne_true
  rcases List.eq_nil_or_concat pending with hnil | ⟨rest, last, hconcat⟩
  · exact hnil
  · rw [hconcat, stores, List.concat_eq_append, ← List.append_assoc] at h
    have hdone := (List.append_inj' h rfl).1
    rw [← hdone, List.any_append, hpublished] at hfront
    cases hfront

/-- What the manager has read is what was reported. -/
def Reads : InfoPc → Prop
  | .awaitCrash | .readPc => True
  | .readDesc pc copied => pc = r.address ∧ copied <+: r.descBytes
  | .done info => info = { pc := r.address, desc := r.descBytes }

/-- The stores are executed in order, and the manager reads when they are all
done. -/
structure Inv (s : Reporting) : Prop where
  stores : ∃ done, done ++ s.pending = r.stores ∧
    s.ipc = done.foldl ReportStore.apply r.ipc ∧
    s.published = done.any ReportStore.isState
  manager : s.manager = .awaitCrash ∨ s.published = true ∧ r.Reads s.manager

variable {r}

theorem Inv.complete {s : Reporting} (h : r.Inv s) (hpublished : s.published = true) :
    s.pending = [] ∧
      s.ipc = r.ipc.reportCrash r.who (fun i => r.desc.getD i 0) r.address := by
  obtain ⟨done, hstores, hipc, hany⟩ := h.stores
  have hpending := r.nil_of_any_isState hstores (hany ▸ hpublished)
  rw [hpending, List.append_nil] at hstores
  refine ⟨hpending, ?_⟩
  rw [hipc, hstores, foldl_stores]

theorem Inv.start : r.Inv r.start := by
  constructor
  · exact ⟨[], rfl, rfl, rfl⟩
  · exact Or.inl rfl

/-- Once the report is complete, the manager reads what was reported. -/
theorem reads_step
    {pc pc' : InfoPc} (hreads : r.Reads pc)
    (h : pc.step (r.ipc.reportCrash r.who (fun i => r.desc.getD i 0) r.address) =
      some pc') : r.Reads pc' := by
  cases pc with
  | awaitCrash =>
      simp only [InfoPc.step] at h
      split at h
      all_goals
        cases h
        trivial
  | readPc =>
      cases h
      exact ⟨rfl, List.nil_prefix⟩
  | readDesc pc copied =>
      obtain ⟨hpc, hprefix⟩ := hreads
      simp only [InfoPc.step] at h
      split at h
      next hlt =>
        cases h
        refine ⟨hpc, ?_⟩
        obtain ⟨rest, hrest⟩ := hprefix
        cases rest with
        | nil =>
            rw [List.append_nil] at hrest
            rw [hrest, length_descBytes] at hlt
            exact absurd hlt (Nat.lt_irrefl _)
        | cons b rest =>
            have hbyte : r.descBytes.getD copied.length 0 = b := by
              simp [← hrest]
            change copied ++ [r.descBytes.getD copied.length 0] <+: r.descBytes
            rw [hbyte]
            exact ⟨rest, by rw [List.append_assoc]; exact hrest⟩
      next hge =>
        cases h
        have hfull := hprefix.eq_of_length_le (by
          rw [r.length_descBytes]
          exact Nat.le_of_not_lt hge)
        rw [Reads, hpc, hfull]
  | done info => cases h

theorem Inv.step
    {s t : Reporting} {party : ReportParty} (hs : r.Inv s)
    (h : s.step party = some t) : r.Inv t := by
  cases party with
  | monitor =>
      simp only [Reporting.step] at h
      split at h
      · cases h
      next store pending hpending =>
        cases h
        obtain ⟨done, hstores, hipc, hany⟩ := hs.stores
        constructor
        · refine ⟨done ++ [store], ?_, ?_, ?_⟩
          · rw [hpending] at hstores
            rw [List.append_assoc]
            exact hstores
          · rw [List.foldl_append, ← hipc]
            rfl
          · rw [List.any_append, ← hany]
            simp
        · rcases hs.manager with hawait | ⟨hpublished, _⟩
          · exact Or.inl hawait
          · rw [(hs.complete hpublished).1] at hpending
            cases hpending
  | manager =>
      simp only [Reporting.step] at h
      split at h
      next hwait =>
        cases h
        exact hs
      next hready =>
        obtain ⟨pc, hpc, rfl⟩ := Option.map_eq_some_iff.mp h
        have hpublished : s.published = true := by
          rcases hs.manager with hawait | ⟨hpublished, _⟩
          · exact eq_true_of_ne_false fun hfalse =>
              hready ⟨hawait, hfalse⟩
          · exact hpublished
        have hreads : r.Reads s.manager := by
          rcases hs.manager with hawait | ⟨_, hreads⟩
          · rw [hawait]
            trivial
          · exact hreads
        rw [(hs.complete hpublished).2] at hpc
        exact ⟨hs.stores, Or.inr ⟨hpublished, reads_step hreads hpc⟩⟩

theorem Inv.of_reachable
    {s : Reporting} (h : Reachable Reporting.step (· = r.start) anyStep s) :
    r.Inv s := by
  apply h.invariant
  · rintro s rfl
    exact Inv.start
  · intro s party t _ hs _ ht
    exact hs.step ht

/-- Every run returns the whole field, padding included. -/
theorem info_eq_of_done
    {s : Reporting} {info : CrashInfo}
    (h : Reachable Reporting.step (· = r.start) anyStep s)
    (hdone : s.manager = .done info) :
    info = { pc := r.address, desc := r.descBytes } := by
  rcases (Inv.of_reachable h).manager with hawait | ⟨_, hreads⟩
  · rw [hawait] at hdone
    cases hdone
  · rw [hdone] at hreads
    exact hreads

/-! ## Completion -/

/-- The reads the manager still has to do. -/
def remainingReads : InfoPc → ℕ
  | .awaitCrash => faultDescSize + 3
  | .readPc => faultDescSize + 2
  | .readDesc _ copied => faultDescSize - copied.length + 1
  | .done _ => 0

theorem remainingReads_step
    {pc : InfoPc} (hpc : ∀ info, pc ≠ .done info) :
    ∃ pc', pc.step (r.ipc.reportCrash r.who (fun i => r.desc.getD i 0)
        r.address) = some pc' ∧ remainingReads pc' < remainingReads pc := by
  cases pc with
  | awaitCrash =>
      refine ⟨.readPc, ?_, Nat.lt_succ_self _⟩
      cases hwho : r.who with
      | monitor => rfl
      | payload => rfl
  | readPc => exact ⟨_, rfl, Nat.lt_succ_self _⟩
  | readDesc pc copied =>
      simp only [InfoPc.step]
      split
      next hlt =>
        refine ⟨_, rfl, ?_⟩
        simp only [remainingReads, List.length_append, List.length_singleton]
        omega
      next hge => exact ⟨_, rfl, Nat.succ_pos _⟩
  | done info => exact absurd rfl (hpc info)

/-- Both parties can always go on until the manager has its answer. -/
theorem exists_step
    {s : Reporting} (hs : r.Inv s) (hdone : ¬∃ info, s.manager = .done info) :
    ∃ party t, s.step party = some t ∧ r.Inv t ∧
      t.pending.length + remainingReads t.manager <
        s.pending.length + remainingReads s.manager := by
  cases hpending : s.pending with
  | cons store pending =>
      have hstep : s.step .monitor = some
          { s with
            ipc := store.apply s.ipc
            pending := pending
            published := s.published || store.isState } := by
        simp only [Reporting.step, hpending]
      refine ⟨.monitor, _, hstep, hs.step hstep, ?_⟩
      simp only [List.length_cons]
      omega
  | nil =>
      obtain ⟨done, hstores, _, hany⟩ := hs.stores
      have hpublished : s.published = true := by
        rw [hpending, List.append_nil] at hstores
        rw [hany, hstores, stores, List.any_append]
        exact Bool.or_true _
      have hready : ¬(s.manager = .awaitCrash ∧ s.published = false) := by
        rw [hpublished]
        exact fun h => Bool.noConfusion h.2
      obtain ⟨pc, hpc, hlt⟩ :=
        remainingReads_step (r := r) fun info h => hdone ⟨info, h⟩
      have hstep : s.step .manager = some { s with manager := pc } := by
        rw [← (hs.complete hpublished).2] at hpc
        simp only [Reporting.step, if_neg hready, hpc, Option.map_some]
      refine ⟨.manager, _, hstep, hs.step hstep, ?_⟩
      simp only [hpending]
      omega

theorem exists_done (r : ReportCall) :
    ∃ s info, Reachable Reporting.step (· = r.start) anyStep s ∧
      s.manager = .done info := by
  obtain ⟨parties, s, hrun, info, hinfo⟩ :=
    exists_run_of_measure (fun _ => exists_step) (Inv.start (r := r))
  have hstart : Reachable Reporting.step (· = r.start) anyStep r.start :=
    .init rfl
  exact ⟨s, info, hstart.run hrun, hinfo⟩

/-! ## When the description is read back -/

/-- Only a description that fills the field comes back without padding. -/
theorem descBytes_eq_take_iff (r : ReportCall) :
    r.descBytes = r.desc.take faultDescSize ↔ faultDescSize ≤ r.desc.length := by
  rw [descBytes_eq, List.append_right_eq_self, List.replicate_eq_nil_iff]
  omega

theorem alwaysReadBack_iff (r : ReportCall) :
    r.AlwaysReadBack ↔ faultDescSize ≤ r.desc.length := by
  constructor
  · intro h
    obtain ⟨s, info, hs, hdone⟩ := r.exists_done
    have hdesc := (h s info hs hdone).2
    rw [info_eq_of_done hs hdone] at hdesc
    exact r.descBytes_eq_take_iff.mp hdesc
  · intro h s info hs hdone
    rw [info_eq_of_done hs hdone]
    exact ⟨rfl, r.descBytes_eq_take_iff.mpr h⟩

/-- The first crash of a payload, with the description `hi`. -/
def firstCrash : ReportCall where
  who := .payload
  desc := [104, 105]
  address := 0x800100040
  ipc := .zero
  nulFree := by decide
  size := rfl

/-- Thirty zeros come back after the description. -/
theorem not_alwaysReadBack : ¬firstCrash.AlwaysReadBack := by
  intro h
  obtain ⟨s, info, hs, hdone⟩ := firstCrash.exists_done
  have hdesc := (h s info hs hdone).2
  rw [info_eq_of_done hs hdone] at hdesc
  exact absurd (firstCrash.descBytes_eq_take_iff.mp hdesc) (by decide)

end ReportCall

end Bmboot
