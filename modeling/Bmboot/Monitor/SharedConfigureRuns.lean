import Bmboot.Monitor.SharedConfigure
import Mathlib.Data.List.Nodup

/-!
# No update is lost, unless two cores share a word

Each of the two fields is a shared bank to which the calls add bits.  If no
core adds a new bit to a word of another core, every copy is current and every
write-back adds its bit.  If some core does, there is an interleaving in which
the other core writes back a copy from before.
-/

namespace Bmboot

open SharedBank

namespace Configuring

/-- A field of the distributor as a shared bank. -/
def fieldView (s : Configuring) (f : Field) : View DomainIndex ℤ 32 where
  bank := f.bank s.gicd
  held := fun cpu => (s.core cpu).held f
  written :=
    {q | ∃ cpu c, (s.core cpu).Past c f.stage ∧ q = f.place c.interruptId}

/-! ## Steps -/

section Steps

variable {s t : Configuring} {cpu : DomainIndex}

/-- A step takes up or refuses the next call, or makes an access of the call
under way. -/
theorem step_cases (ht : s.step cpu = some t) :
    (∃ c rest, (s.core cpu).current = none ∧
      (s.core cpu).todo = c :: rest ∧
      t = { s with
        core := Function.update s.core cpu
          { (if c.Accepted then (s.core cpu).goto c (.read .group)
              else (s.core cpu).finish c) with todo := rest } }) ∨
    (∃ c pc, (s.core cpu).current = some (c, pc) ∧
      t = { gicd := c.access cpu s.gicd pc
            core := Function.update s.core cpu
              ((s.core cpu).advance c s.gicd pc) }) := by
  unfold step at ht
  cases hcurrent : (s.core cpu).current with
  | some call =>
      obtain ⟨c, pc⟩ := call
      simp only [hcurrent, Option.some.injEq] at ht
      exact .inr ⟨c, pc, rfl, ht.symm⟩
  | none =>
      cases htodo : (s.core cpu).todo with
      | nil => simp [hcurrent, htodo] at ht
      | cons c rest =>
          simp only [hcurrent, htodo, Option.some.injEq] at ht
          exact .inl ⟨c, rest, rfl, rfl, ht.symm⟩

theorem step_eq_some
    {c : SpiCall} {pc : ConfigurePc}
    (hcurrent : (s.core cpu).current = some (c, pc)) :
    s.step cpu = some
      { gicd := c.access cpu s.gicd pc
        core := Function.update s.core cpu
          ((s.core cpu).advance c s.gicd pc) } := by
  simp [step, hcurrent]

theorem step_take
    {c : SpiCall} {rest : List SpiCall}
    (hcurrent : (s.core cpu).current = none)
    (htodo : (s.core cpu).todo = c :: rest) :
    s.step cpu = some { s with
      core := Function.update s.core cpu
        { (if c.Accepted then (s.core cpu).goto c (.read .group)
            else (s.core cpu).finish c) with todo := rest } } := by
  simp [step, hcurrent, htodo]

/-- A call that no other core interrupts does what the handler of the monitor
call does. -/
theorem run_single
    {irq : Interrupts} {c : SpiCall} {rest : List SpiCall} (hc : c.Accepted)
    (hgicd : s.gicd = irq.gicd) (hcurrent : (s.core cpu).current = none)
    (htodo : (s.core cpu).todo = c :: rest) :
    (StepSystem.run step s (List.replicate 7 cpu)).map Configuring.gicd =
      some (irq.smcConfigure cpu c.interruptId c.requestedPriority).gicd := by
  have hrefused : ¬(c.requestedPriority < payloadMinPriorityValue ∨
      c.requestedPriority > payloadMaxPriorityValue) :=
    fun h => not_payloadPriority_iff.mpr h hc
  have hspi : (c.interruptId : ℤ) ≥ 32 := Int.ofNat_le.mpr c.min_le
  have hppi : ¬((c.interruptId : ℤ) ≥ 16 ∧ (c.interruptId : ℤ) < 32) := by
    omega
  rw [Interrupts.smcConfigure, if_neg hrefused, if_neg hppi, if_pos hspi]
  simp [StepSystem.run, List.replicate, step, hcurrent, htodo, hc,
    CoreCalls.goto, CoreCalls.advance, CoreCalls.finish, SpiCall.access]
  have hrange : (c.interruptId : ℤ) ≥ gicMinUserInterruptId ∧
      (c.interruptId : ℤ) ≤ gicMaxUserInterruptId :=
    ⟨Int.natCast_nonneg _, Int.ofNat_le.mpr c.le_max⟩
  simp only [Interrupts.configureSharedPeripheralInterruptAndRouteToCpu,
    Interrupts.setGroupForInterruptChannel, Interrupts.recordRouting,
    if_pos hrange, hgicd]
  rfl

/-- A step leaves the other cores alone. -/
theorem step_core_of_ne
    (ht : s.step cpu = some t) {cpu' : DomainIndex} (hne : cpu' ≠ cpu) :
    t.core cpu' = s.core cpu' := by
  rcases step_cases ht with ⟨c, rest, -, -, rfl⟩ | ⟨c, pc, -, rfl⟩
  · exact Function.update_of_ne hne _ _
  · exact Function.update_of_ne hne _ _

end Steps

/-! ## The calls and what they have done -/

/-- Calls are made in order and only accepted ones are under way; priorities
and targets are written for good. -/
structure Progress (w : Workload) (s : Configuring) : Prop where
  calls : ∀ cpu, w.calls cpu = (s.core cpu).done ++
    (s.core cpu).current.toList.map Prod.fst ++ (s.core cpu).todo
  accepted : ∀ cpu c pc, (s.core cpu).current = some (c, pc) → c.Accepted
  priority : ∀ cpu c, (s.core cpu).Past c 3 →
    s.gicd.ipriorityr c.interruptId = BitVec.ofInt 8 c.requestedPriority
  targets : ∀ cpu c, (s.core cpu).Past c 4 →
    s.gicd.itargetsr c.interruptId = 1#8 <<< cpu.cpuIndex

end Configuring

theorem Workload.eq_of_interruptId_eq
    (w : Workload) {cpu cpu' : DomainIndex} {c c' : SpiCall}
    (hc : c ∈ w.calls cpu) (hc' : c' ∈ w.calls cpu')
    (hid : c.interruptId = c'.interruptId) : cpu = cpu' ∧ c = c' := by
  by_cases hcpu : cpu = cpu'
  · subst hcpu
    exact ⟨rfl, List.inj_on_of_nodup_map (w.nodup cpu) hc hc' hid⟩
  · exact absurd hid (w.disjoint cpu cpu' hcpu c hc c' hc')

namespace Configuring

section Progress

variable {w : Workload} {s t : Configuring} {cpu cpu' : DomainIndex}
  {c c' : SpiCall} {pc : ConfigurePc} {n : ℕ}

theorem progress_start (d : Gicd) (w : Workload) :
    (start d w.calls).Progress w := by
  constructor
  · intro cpu
    rfl
  · intro cpu c pc hcurrent
    cases hcurrent
  · rintro cpu c ⟨-, hdone | ⟨pc, hcurrent, -⟩⟩
    · exact absurd hdone List.not_mem_nil
    · cases hcurrent
  · rintro cpu c ⟨-, hdone | ⟨pc, hcurrent, -⟩⟩
    · exact absurd hdone List.not_mem_nil
    · cases hcurrent

theorem Progress.mem_of_current
    (hs : s.Progress w) (hcurrent : (s.core cpu).current = some (c, pc)) :
    c ∈ w.calls cpu := by
  rw [hs.calls cpu, hcurrent]
  simp

theorem Progress.mem_of_past
    (hs : s.Progress w) (hpast : (s.core cpu).Past c n) :
    c ∈ w.calls cpu := by
  rcases hpast.2 with hdone | ⟨pc, hcurrent, -⟩
  · rw [hs.calls cpu]
    simp [hdone]
  · exact hs.mem_of_current hcurrent

/-- A call under way is the only one for its interrupt, and has got no further
than it has. -/
theorem Progress.not_past_of_current
    (hs : s.Progress w) (hcurrent : (s.core cpu).current = some (c, pc))
    (hn : pc.accesses < n) (hpast : (s.core cpu').Past c' n) :
    c'.interruptId ≠ c.interruptId := by
  intro hid
  obtain ⟨rfl, rfl⟩ := w.eq_of_interruptId_eq (hs.mem_of_past hpast)
    (hs.mem_of_current hcurrent) hid
  rcases hpast.2 with hdone | ⟨pc', hcurrent', hle⟩
  · have hnodup := w.nodup cpu'
    rw [hs.calls cpu', hcurrent] at hnodup
    simp only [Option.toList_some, List.map_cons, List.map_nil,
      List.append_assoc, List.singleton_append, List.map_append] at hnodup
    have hdisjoint := (List.nodup_append.mp hnodup).2.2
    exact hdisjoint _ (List.mem_map_of_mem hdone) _ List.mem_cons_self rfl
  · rw [hcurrent, Option.some.injEq, Prod.mk.injEq] at hcurrent'
    rw [← hcurrent'.2] at hle
    exact absurd hle (Nat.not_le_of_lt hn)

theorem calls_advance (k : CoreCalls) (d : Gicd)
    (hcurrent : k.current = some (c, pc)) :
    (k.advance c d pc).done ++
        (k.advance c d pc).current.toList.map Prod.fst ++
        (k.advance c d pc).todo =
      k.done ++ k.current.toList.map Prod.fst ++ k.todo := by
  cases pc with
  | read f => simp [CoreCalls.advance, CoreCalls.goto, hcurrent]
  | write f word =>
      cases f with
      | group => simp [CoreCalls.advance, CoreCalls.goto, hcurrent]
      | trigger => simp [CoreCalls.advance, CoreCalls.finish, hcurrent]
  | writePriority => simp [CoreCalls.advance, CoreCalls.goto, hcurrent]
  | writeTargets => simp [CoreCalls.advance, CoreCalls.goto, hcurrent]

theorem current_advance {k : CoreCalls} {d : Gicd} {pc' : ConfigurePc}
    (h : (k.advance c d pc).current = some (c', pc')) : c' = c := by
  cases pc with
  | read f =>
      simp only [CoreCalls.advance, CoreCalls.goto, Option.some.injEq,
        Prod.mk.injEq] at h
      exact h.1.symm
  | write f word =>
      cases f with
      | group =>
          simp only [CoreCalls.advance, CoreCalls.goto, Option.some.injEq,
            Prod.mk.injEq] at h
          exact h.1.symm
      | trigger => cases h
  | writePriority | writeTargets =>
      simp only [CoreCalls.advance, CoreCalls.goto, Option.some.injEq,
        Prod.mk.injEq] at h
      exact h.1.symm

/-- The priority of an interrupt after an access. -/
theorem ipriorityr_access (cpu : DomainIndex) (d : Gicd) (id : ℤ) :
    (c.access cpu d pc).ipriorityr id =
      if pc = .writePriority ∧ id = c.interruptId then
        BitVec.ofInt 8 c.requestedPriority
      else d.ipriorityr id := by
  cases pc with
  | read f => simp [SpiCall.access]
  | write f word => cases f <;> simp [SpiCall.access, Field.store]
  | writePriority =>
      by_cases hid : id = c.interruptId <;>
        simp [SpiCall.access, Gicd.writePriority, hid]
  | writeTargets => simp [SpiCall.access, Gicd.writeTargets]

theorem itargetsr_access (cpu : DomainIndex) (d : Gicd) (id : ℤ) :
    (c.access cpu d pc).itargetsr id =
      if pc = .writeTargets ∧ id = c.interruptId then 1#8 <<< cpu.cpuIndex
      else d.itargetsr id := by
  cases pc with
  | read f => simp [SpiCall.access]
  | write f word => cases f <;> simp [SpiCall.access, Field.store]
  | writePriority => simp [SpiCall.access, Gicd.writePriority]
  | writeTargets =>
      by_cases hid : id = c.interruptId <;>
        simp [SpiCall.access, Gicd.writeTargets, hid]

/-- A step past a call's `n`-th access is a step of that call's core. -/
theorem past_step
    (hs : s.Progress w) (ht : s.step cpu = some t) (hpos : 0 < n) (hn : n ≤ 6) :
    (t.core cpu').Past c' n ↔
      (s.core cpu').Past c' n ∨
        cpu' = cpu ∧ ∃ pc, (s.core cpu).current = some (c', pc) ∧
          n = pc.accesses + 1 := by
  by_cases hcpu : cpu' = cpu
  · subst hcpu
    rcases step_cases ht with ⟨c, rest, hcurrent, htodo, rfl⟩ |
      ⟨c, pc, hcurrent, rfl⟩
    · simp only [Function.update_self]
      rw [CoreCalls.past_take hcurrent hpos]
      simp [hcurrent]
    · simp only [Function.update_self]
      rw [CoreCalls.past_advance hcurrent (hs.accepted _ _ _ hcurrent) hn]
      constructor
      · rintro (hpast | ⟨rfl, heq⟩)
        · exact .inl hpast
        · exact .inr ⟨trivial, pc, hcurrent, heq⟩
      · rintro (hpast | ⟨-, pc', hcurrent', heq⟩)
        · exact .inl hpast
        · rw [hcurrent, Option.some.injEq, Prod.mk.injEq] at hcurrent'
          obtain ⟨rfl, rfl⟩ := hcurrent'
          exact .inr ⟨rfl, heq⟩
  · rw [step_core_of_ne ht hcpu]
    simp [hcpu]

/-- The bytes of a register that only one access of a call writes, at the call's
own interrupt, stay as the calls past that access have written them. -/
theorem Progress.bytes_step
    {register : Gicd → ℤ → BitVec 8} {value : DomainIndex → SpiCall → BitVec 8}
    (hs : s.Progress w) (ht : s.step cpu = some t) (write : ConfigurePc)
    (hn : write.accesses + 1 ≤ 6)
    (hwrite : ∀ pc : ConfigurePc, write.accesses + 1 = pc.accesses + 1 →
      pc = write)
    (haccess : ∀ cpu (c : SpiCall) d pc id,
      register (c.access cpu d pc) id =
        if pc = write ∧ id = c.interruptId then value cpu c else register d id)
    (hbytes : ∀ cpu c, (s.core cpu).Past c (write.accesses + 1) →
      register s.gicd c.interruptId = value cpu c) :
    ∀ cpu c, (t.core cpu).Past c (write.accesses + 1) →
      register t.gicd c.interruptId = value cpu c := by
  intro cpu' c' hpast
  rw [past_step hs ht (Nat.succ_pos _) hn] at hpast
  rcases step_cases ht with ⟨c, rest, hcurrent, -, rfl⟩ |
    ⟨c, pc, hcurrent, rfl⟩
  · rcases hpast with hold | ⟨-, pc, hcurrent', -⟩
    · exact hbytes cpu' c' hold
    · rw [hcurrent] at hcurrent'
      cases hcurrent'
  · simp only [haccess]
    rcases hpast with hold | ⟨rfl, pc', hcurrent', hpc'⟩
    · split_ifs with hwrites
      · have hlt : pc.accesses < write.accesses + 1 := by
          rw [hwrites.1]
          exact Nat.lt_succ_self _
        exact absurd (Int.ofNat_inj.mp hwrites.2)
          (hs.not_past_of_current hcurrent hlt hold)
      · exact hbytes cpu' c' hold
    · rw [hcurrent, Option.some.injEq, Prod.mk.injEq] at hcurrent'
      obtain ⟨rfl, rfl⟩ := hcurrent'
      rw [if_pos ⟨hwrite _ hpc', rfl⟩]

theorem Progress.step
    (hs : s.Progress w) (ht : s.step cpu = some t) : t.Progress w := by
  constructor
  · intro cpu'
    by_cases hcpu : cpu' = cpu
    · subst hcpu
      rw [hs.calls cpu']
      rcases step_cases ht with ⟨c, rest, hcurrent, htodo, rfl⟩ |
        ⟨c, pc, hcurrent, rfl⟩
      · simp only [Function.update_self]
        by_cases hc : c.Accepted
        · simp [hc, CoreCalls.goto, hcurrent, htodo]
        · simp [hc, CoreCalls.finish, hcurrent, htodo]
      · simp only [Function.update_self]
        exact (calls_advance _ _ hcurrent).symm
    · rw [step_core_of_ne ht hcpu]
      exact hs.calls cpu'
  · intro cpu' c' pc' hcurrent'
    by_cases hcpu : cpu' = cpu
    · subst hcpu
      rcases step_cases ht with ⟨c, rest, hcurrent, htodo, rfl⟩ |
        ⟨c, pc, hcurrent, rfl⟩
      · simp only [Function.update_self] at hcurrent'
        by_cases hc : c.Accepted
        · rw [if_pos hc] at hcurrent'
          simp only [CoreCalls.goto, Option.some.injEq,
            Prod.mk.injEq] at hcurrent'
          exact hcurrent'.1 ▸ hc
        · rw [if_neg hc] at hcurrent'
          cases hcurrent'
      · simp only [Function.update_self] at hcurrent'
        rw [current_advance hcurrent']
        exact hs.accepted cpu' c pc hcurrent
    · rw [step_core_of_ne ht hcpu] at hcurrent'
      exact hs.accepted cpu' c' pc' hcurrent'
  · exact hs.bytes_step ht .writePriority (by decide)
      (fun _ => ConfigurePc.eq_writePriority)
      (fun cpu c d pc id => ipriorityr_access cpu d id) hs.priority
  · exact hs.bytes_step ht .writeTargets (by decide)
      (fun _ => ConfigurePc.eq_writeTargets)
      (fun cpu c d pc id => itargetsr_access cpu d id) hs.targets

end Progress

/-! ## Steps on a field -/

section Fields

variable {w : Workload} {s t : Configuring} {cpu : DomainIndex} {f : Field}

theorem held_of_current_none {k : CoreCalls} (h : k.current = none) :
    k.held f = none := by
  simp [CoreCalls.held, h]

theorem held_eq_some_iff
    {k : CoreCalls} {p : Place ℤ} {word : BitVec 32} :
    k.held f = some (p, word) ↔
      ∃ c, k.current = some (c, .write f word) ∧ p = f.place c.interruptId := by
  unfold CoreCalls.held
  constructor
  · intro h
    split at h
    next c g word' hcurrent =>
      split_ifs at h with hg
      simp only [Option.some.injEq, Prod.mk.injEq] at h
      obtain ⟨rfl, rfl⟩ := h
      subst hg
      exact ⟨c, hcurrent, rfl⟩
    next => cases h
  · rintro ⟨c, hcurrent, rfl⟩
    simp [hcurrent]

/-- The bits written after a step. -/
theorem written_step (hs : s.Progress w) (ht : s.step cpu = some t) :
    (t.fieldView f).written =
      {q | q ∈ (s.fieldView f).written ∨ ∃ c word,
        (s.core cpu).current = some (c, .write f word) ∧
          q = f.place c.interruptId} := by
  have hpos : 0 < f.stage := by cases f <;> decide
  have hle : f.stage ≤ 6 := by cases f <;> decide
  ext q
  simp only [fieldView, Set.mem_ofPred_eq]
  constructor
  · rintro ⟨cpu', c, hpast, rfl⟩
    rcases (past_step hs ht hpos hle).mp hpast with hold |
      ⟨-, pc, hcurrent, heq⟩
    · exact .inl ⟨cpu', c, hold, rfl⟩
    · obtain ⟨word, rfl⟩ := (f.stage_eq_iff pc).mp heq
      exact .inr ⟨c, word, hcurrent, rfl⟩
  · rintro (⟨cpu', c, hold, rfl⟩ | ⟨c, word, hcurrent, rfl⟩)
    · exact ⟨cpu', c, (past_step hs ht hpos hle).mpr (.inl hold), rfl⟩
    · have heq := (f.stage_eq_iff (.write f word)).mpr ⟨word, rfl⟩
      exact ⟨cpu, c, (past_step hs ht hpos hle).mpr
        (.inr ⟨rfl, _, hcurrent, heq⟩), rfl⟩

theorem held_update (core : DomainIndex → CoreCalls) (cpu : DomainIndex)
    (k : CoreCalls) :
    (fun cpu' => (Function.update core cpu k cpu').held f) =
      Function.update (fun cpu' => (core cpu').held f) cpu (k.held f) := by
  funext cpu'
  by_cases hcpu : cpu' = cpu
  · subst hcpu
    simp
  · simp [hcpu]

theorem held_advance (k : CoreCalls) (c : SpiCall) (d : Gicd)
    (pc : ConfigurePc) :
    (k.advance c d pc).held f =
      if pc = .read f then
        some (f.place c.interruptId, f.bank d (f.place c.interruptId).word)
      else none := by
  cases pc with
  | read g =>
      by_cases hg : g = f
      · subst hg
        simp [CoreCalls.advance, CoreCalls.held, CoreCalls.goto]
      · simp [CoreCalls.advance, CoreCalls.held, CoreCalls.goto, hg]
  | write g word =>
      cases g <;>
        simp [CoreCalls.advance, CoreCalls.held, CoreCalls.goto,
          CoreCalls.finish]
  | writePriority | writeTargets =>
      simp [CoreCalls.advance, CoreCalls.held, CoreCalls.goto]

/-- In each field a step reads a word, writes a word back, or does nothing. -/
theorem fieldView_step (hs : s.Progress w) (ht : s.step cpu = some t) :
    (∃ c, (s.core cpu).current = some (c, .read f) ∧
      t.fieldView f = (s.fieldView f).read cpu (f.place c.interruptId)) ∨
    (∃ c word, (s.core cpu).current = some (c, .write f word) ∧
      t.fieldView f =
        (s.fieldView f).write cpu (f.place c.interruptId) word) ∨
    ((∀ c word, (s.core cpu).current ≠ some (c, .write f word)) ∧
      t.fieldView f = s.fieldView f) := by
  have hwritten : (t.fieldView f).written = _ := written_step hs ht
  rcases step_cases ht with ⟨c, rest, hcurrent, -, rfl⟩ |
    ⟨c, pc, hcurrent, rfl⟩
  · refine .inr (.inr ⟨by simp [hcurrent], View.ext rfl ?_ ?_⟩)
    · have hnone := held_of_current_none (f := f) hcurrent
      refine (held_update _ _ _).trans (Function.update_eq_self_iff.mpr ?_)
      refine Eq.trans ?_ hnone.symm
      by_cases hc : c.Accepted
      · simp [CoreCalls.held, hc, CoreCalls.goto]
      · simp [CoreCalls.held, hc, CoreCalls.finish]
    · rw [hwritten]
      simp [hcurrent]
  · -- the fields of the view after an access
    have hheld := (held_update s.core cpu
      ((s.core cpu).advance c s.gicd pc)).trans
        (congrArg _ (held_advance (f := f) (s.core cpu) c s.gicd pc))
    simp only [hcurrent, Option.some.injEq, Prod.mk.injEq] at hwritten
    by_cases hread : pc = .read f
    · subst hread
      refine .inl ⟨c, hcurrent, View.ext rfl ?_ ?_⟩
      · rw [if_pos rfl] at hheld
        exact hheld
      · rw [hwritten]
        simp [View.read]
    · rw [if_neg hread] at hheld
      by_cases hwrite : ∃ word, pc = .write f word
      · obtain ⟨word, rfl⟩ := hwrite
        refine .inr (.inl ⟨c, word, hcurrent, View.ext ?_ hheld ?_⟩)
        · have hbank := Field.bank_store f f s.gicd
            (f.place c.interruptId).word (f.newWord word c.interruptId)
          rw [if_pos rfl] at hbank
          refine hbank.trans ?_
          rw [Field.newWord_eq]
          rfl
        · rw [hwritten]
          ext q
          simp [View.write, or_comm]
      · have hold : (s.core cpu).held f = none := by
          cases hh : (s.core cpu).held f with
          | none => rfl
          | some q =>
              obtain ⟨c', hcurrent', -⟩ := held_eq_some_iff.mp hh
              rw [hcurrent, Option.some.injEq, Prod.mk.injEq] at hcurrent'
              exact absurd ⟨q.2, hcurrent'.2⟩ hwrite
        refine .inr (.inr ⟨?_, View.ext ?_ ?_ ?_⟩)
        · intro c' word hcurrent'
          rw [hcurrent, Option.some.injEq, Prod.mk.injEq] at hcurrent'
          exact hwrite ⟨word, hcurrent'.2⟩
        · cases pc with
          | read g => rfl
          | write g word =>
              have hne : f ≠ g := by
                rintro rfl
                exact hwrite ⟨word, rfl⟩
              have hbank := Field.bank_store g f s.gicd
                (g.place c.interruptId).word (g.newWord word c.interruptId)
              rw [if_neg hne] at hbank
              exact hbank
          | writePriority => cases f <;> rfl
          | writeTargets => cases f <;> rfl
        · exact hheld.trans (Function.update_eq_self_iff.mpr hold.symm)
        · rw [hwritten]
          ext q
          constructor
          · rintro (hq | ⟨c', word, ⟨-, hpc⟩, -⟩)
            · exact hq
            · exact absurd ⟨word, hpc⟩ hwrite
          · exact .inl

end Fields

/-! ## Without shared words -/

/-- Both fields hold what has been written and all copies are current. -/
structure Coherent (init : Gicd) (s : Configuring) : Prop where
  complete : ∀ f : Field, (s.fieldView f).Complete (f.bank init)
  current : ∀ f : Field, (s.fieldView f).Current

section Coherent

variable {init : Gicd} {w : Workload} {s t : Configuring} {cpu : DomainIndex}

theorem not_mem_written_start
    (d : Gicd) (calls : DomainIndex → List SpiCall) (f : Field) (q : Place ℤ) :
    q ∉ ((start d calls).fieldView f).written := by
  rintro ⟨cpu, c, ⟨-, hdone | ⟨pc, hcurrent, -⟩⟩, -⟩
  · exact absurd hdone List.not_mem_nil
  · cases hcurrent

theorem coherent_start (d : Gicd) (calls : DomainIndex → List SpiCall) :
    (start d calls).Coherent d := by
  constructor
  · intro f q _
    simp only [not_mem_written_start, or_false]
    exact Iff.rfl
  · intro f cpu p word hheld
    cases hheld

theorem Coherent.step
    (hshared : NoSharedWord init w) (hp : s.Progress w)
    (hs : s.Coherent init) (ht : s.step cpu = some t) : t.Coherent init := by
  have hview : ∀ f : Field, (t.fieldView f).Complete (f.bank init) ∧
      (t.fieldView f).Current := by
    intro f
    rcases fieldView_step (f := f) hp ht with ⟨c, -, heq⟩ |
      ⟨c, word, hcurrent, heq⟩ | ⟨-, heq⟩
    · rw [heq]
      exact ⟨(hs.complete f).read, (hs.current f).read⟩
    · have hword := hs.current f cpu (f.place c.interruptId) word
        (held_eq_some_iff.mpr ⟨c, hcurrent, rfl⟩)
      rw [heq]
      refine ⟨(hs.complete f).write hword, (hs.current f).write hword ?_⟩
      by_cases hset : f.isSet init c.interruptId = true
      · left
        rw [hs.complete f _ (f.place_bit_lt _)]
        exact .inl hset
      · right
        intro cpu' hcpu p' word' hheld hsame
        obtain ⟨c', hcurrent', rfl⟩ := held_eq_some_iff.mp hheld
        exact hset (hshared cpu cpu' hcpu.symm
          c (hp.mem_of_current hcurrent) c' (hp.mem_of_current hcurrent')
          (hp.accepted cpu c _ hcurrent) (hp.accepted cpu' c' _ hcurrent')
          f hsame.symm)
    · rw [heq]
      exact ⟨hs.complete f, hs.current f⟩
  exact ⟨fun f => (hview f).1, fun f => (hview f).2⟩

theorem Progress.past_of_finished
    (hp : s.Progress w) (hf : s.Finished) {c : SpiCall}
    (hc : c ∈ w.calls cpu) (hacc : c.Accepted) (n : ℕ) :
    (s.core cpu).Past c n := by
  obtain ⟨hcurrent, htodo⟩ := hf cpu
  rw [hp.calls cpu, hcurrent, htodo] at hc
  exact ⟨hacc, .inl (by simpa using hc)⟩

/-- When all calls have been made, nothing has been lost. -/
theorem Coherent.configuredRight
    (hp : s.Progress w) (hs : s.Coherent init) (hf : s.Finished) :
    ConfiguredRight init w s.gicd := by
  have hset : ∀ (f : Field) cpu, ∀ c ∈ w.calls cpu, c.Accepted →
      f.isSet s.gicd c.interruptId = true := by
    intro f cpu c hc hacc
    exact (hs.complete f _ (f.place_bit_lt _)).mpr
      (.inr ⟨cpu, c, hp.past_of_finished hf hc hacc _, rfl⟩)
  have hother : ∀ (f : Field) (q : Place ℤ), q.bit < 32 →
      (∀ cpu, ∀ c ∈ w.calls cpu, c.Accepted →
        f.place c.interruptId ≠ q) →
      RegisterBank.bit (f.bank s.gicd) q.word q.bit =
        RegisterBank.bit (f.bank init) q.word q.bit := by
    intro f q hq hnot
    have hwritten : q ∉ (s.fieldView f).written := by
      rintro ⟨cpu, c, hpast, heq⟩
      exact hnot cpu c (hp.mem_of_past hpast) hpast.1 heq.symm
    rw [Bool.eq_iff_iff]
    exact (hs.complete f q hq).trans (or_iff_left hwritten)
  constructor
  · exact hset .group
  · exact hset .trigger
  · intro cpu c hc hacc
    exact hp.priority cpu c (hp.past_of_finished hf hc hacc 3)
  · intro cpu c hc hacc
    exact hp.targets cpu c (hp.past_of_finished hf hc hacc 4)
  · intro id hnot
    refine hother .group (Field.group.place id) (Field.group.place_bit_lt id) ?_
    intro cpu c hc hacc heq
    exact hnot cpu c hc hacc (Field.group.place_injective heq)
  · intro id hnot k
    have hlt := Field.trigger.place_bit_lt id
    have hk : k = 0 ∨ k = 1 := by
      omega
    rcases hk with rfl | rfl
    · have hlow : (Field.trigger.place id).bit =
          ((id : ℤ).tmod 16 * 2).toNat + 1 := rfl
      have hlow' : (Place.mk ((id : ℤ).tdiv 16)
          ((id : ℤ).tmod 16 * 2).toNat).bit < 32 := by
        change ((id : ℤ).tmod 16 * 2).toNat < 32
        omega
      refine hother .trigger _ hlow' ?_
      intro cpu c _ _
      exact Field.place_trigger_ne_low id c.interruptId
    · refine hother .trigger (Field.trigger.place id) hlt ?_
      intro cpu c hc hacc heq
      exact hnot cpu c hc hacc (Field.trigger.place_injective heq)

end Coherent

/-! ## With shared words -/

section Lost

variable {init : Gicd} {w : Workload} {s t : Configuring} {cpu : DomainIndex}
  {f : Field}

theorem untouched_step
    (hp : s.Progress w) (hs : (s.fieldView f).Untouched (f.bank init))
    (ht : s.step cpu = some t) : (t.fieldView f).Untouched (f.bank init) := by
  rcases fieldView_step (f := f) hp ht with ⟨c, -, heq⟩ |
    ⟨c, word, hcurrent, heq⟩ | ⟨-, heq⟩
  · rw [heq]
    exact hs.read
  · rw [heq]
    exact hs.write (held_eq_some_iff.mpr ⟨c, hcurrent, rfl⟩)
  · rw [heq]
    exact hs

/-- No other call sets the bit of an interrupt. -/
theorem lost_step
    (hp : s.Progress w) {q : Place ℤ} (hs : (s.fieldView f).Lost q)
    (ht : s.step cpu = some t) : (t.fieldView f).Lost q := by
  rcases fieldView_step (f := f) hp ht with ⟨c, -, heq⟩ |
    ⟨c, word, hcurrent, heq⟩ | ⟨-, heq⟩
  · rw [heq]
    exact hs.read
  · rw [heq]
    refine hs.write (held_eq_some_iff.mpr ⟨c, hcurrent, rfl⟩) ?_
    intro hq
    obtain ⟨cpu', c', hpast, hq'⟩ := hs.written
    have hlt : (ConfigurePc.write f word).accesses < f.stage := by
      have heq := (f.stage_eq_iff (.write f word)).mpr ⟨word, rfl⟩
      omega
    exact hp.not_past_of_current hcurrent hlt hpast
      (f.place_injective (hq'.symm.trans hq))
  · rw [heq]
    exact hs

end Lost

/-! ### Running one core alone -/

/-- A bound for the steps that a core has left. -/
def remaining (k : CoreCalls) : ℕ :=
  7 * k.todo.length +
    match k.current with
    | some (_, pc) => 6 - pc.accesses
    | none => 0

section Runs

variable {s t : Configuring} {cpu : DomainIndex} {c : SpiCall}
  {pc : ConfigurePc}

/-- An access but the last leads to the next one. -/
theorem current_advance_of_lt
    (k : CoreCalls) (d : Gicd) (hlt : pc.accesses < 5) :
    ∃ pc', (k.advance c d pc).current = some (c, pc') ∧
      pc'.accesses = pc.accesses + 1 := by
  cases pc with
  | read f => cases f <;> exact ⟨_, rfl, rfl⟩
  | write f word =>
      cases f with
      | group => exact ⟨_, rfl, rfl⟩
      | trigger => exact absurd hlt (by simp [ConfigurePc.accesses])
  | writePriority | writeTargets => exact ⟨_, rfl, rfl⟩

theorem current_advance_of_last
    (k : CoreCalls) (d : Gicd) (hlast : pc.accesses = 5) :
    (k.advance c d pc).current = none := by
  cases pc with
  | read f => cases f <;> simp [ConfigurePc.accesses] at hlast
  | write f word =>
      cases f with
      | group => simp [ConfigurePc.accesses] at hlast
      | trigger => rfl
  | writePriority | writeTargets => simp [ConfigurePc.accesses] at hlast

theorem todo_advance (k : CoreCalls) (d : Gicd) :
    (k.advance c d pc).todo = k.todo := by
  cases pc with
  | read f => rfl
  | write f word => cases f <;> rfl
  | writePriority | writeTargets => rfl

theorem remaining_advance
    (k : CoreCalls) (d : Gicd) (hcurrent : k.current = some (c, pc)) :
    remaining (k.advance c d pc) < remaining k := by
  have hlt := pc.accesses_lt
  rw [remaining, todo_advance]
  rcases Nat.lt_or_ge pc.accesses 5 with hmore | hlast
  · obtain ⟨pc', hnext, hpc'⟩ := current_advance_of_lt (c := c) k d hmore
    simp only [remaining, hnext, hcurrent]
    omega
  · have hlast' : pc.accesses = 5 := by omega
    have hnext := current_advance_of_last (c := c) k d hlast'
    simp only [remaining, hnext, hcurrent]
    omega

/-- A core that has calls left takes a step and has less to do. -/
theorem exists_step
    (hmore : ¬((s.core cpu).current = none ∧ (s.core cpu).todo = [])) :
    ∃ t, s.step cpu = some t ∧
      remaining (t.core cpu) < remaining (s.core cpu) := by
  cases hcurrent : (s.core cpu).current with
  | some call =>
      refine ⟨_, step_eq_some hcurrent, ?_⟩
      simp only [Function.update_self]
      exact remaining_advance _ _ hcurrent
  | none =>
      cases htodo : (s.core cpu).todo with
      | nil => exact absurd ⟨hcurrent, htodo⟩ hmore
      | cons c rest =>
          refine ⟨_, step_take hcurrent htodo, ?_⟩
          by_cases hc : c.Accepted
          · simp only [Function.update_self, if_pos hc, remaining,
              CoreCalls.goto, hcurrent, htodo, List.length_cons,
              ConfigurePc.accesses]
            omega
          · simp only [Function.update_self, if_neg hc, remaining,
              CoreCalls.finish, hcurrent, htodo, List.length_cons]
            omega

/-- A core alone finishes its calls. -/
theorem exists_run_core_finished (s : Configuring) (cpu : DomainIndex) :
    ∃ as t, StepSystem.run step s as = some t ∧
      ((t.core cpu).current = none ∧ (t.core cpu).todo = []) ∧
      ∀ cpu', cpu' ≠ cpu → t.core cpu' = s.core cpu' := by
  induction hn : remaining (s.core cpu) using Nat.strong_induction_on
    generalizing s with
  | h n ih =>
      subst hn
      by_cases hdone :
          (s.core cpu).current = none ∧ (s.core cpu).todo = []
      · exact ⟨[], s, rfl, hdone, fun _ _ => rfl⟩
      · obtain ⟨u, hu, hless⟩ := exists_step hdone
        obtain ⟨as, t, hrun, hfinished, hothers⟩ := ih _ hless u rfl
        refine ⟨cpu :: as, t, StepSystem.run_cons_eq_some.mpr ⟨u, hu, hrun⟩,
          hfinished, ?_⟩
        intro cpu' hne
        rw [hothers cpu' hne, step_core_of_ne hu hne]

/-- Every state can be continued until all calls have been made. -/
theorem exists_run_finished (s : Configuring) :
    ∃ as t, StepSystem.run step s as = some t ∧ t.Finished := by
  obtain ⟨as₁, s₁, hrun₁, hdone₁, -⟩ := exists_run_core_finished s .cpu1
  obtain ⟨as₂, s₂, hrun₂, hdone₂, hothers₂⟩ :=
    exists_run_core_finished s₁ .cpu2
  obtain ⟨as₃, s₃, hrun₃, hdone₃, hothers₃⟩ :=
    exists_run_core_finished s₂ .cpu3
  refine ⟨as₁ ++ (as₂ ++ as₃), s₃, ?_, ?_⟩
  · rw [StepSystem.run_append, hrun₁, Option.bind_some,
      StepSystem.run_append, hrun₂, Option.bind_some, hrun₃]
  · intro cpu
    cases cpu with
    | cpu1 =>
        rw [hothers₃ .cpu1 (by decide), hothers₂ .cpu1 (by decide)]
        exact hdone₁
    | cpu2 =>
        rw [hothers₃ .cpu2 (by decide)]
        exact hdone₂
    | cpu3 => exact hdone₃

/-- The call has not yet read the word of the field. -/
def Before (f : Field) (c : SpiCall) (k : CoreCalls) : Prop :=
  c ∈ k.todo ∨ ∃ pc, k.current = some (c, pc) ∧ pc.accesses < f.stage

/-- A core alone gets to the write-back of a call that it has not made. -/
theorem exists_run_held
    (s : Configuring) (cpu : DomainIndex) {c : SpiCall} (hc : c.Accepted)
    (f : Field) (hbefore : Before f c (s.core cpu)) :
    ∃ as t word, StepSystem.run step s as = some t ∧
      (t.core cpu).current = some (c, .write f word) ∧
      ∀ cpu', cpu' ≠ cpu → t.core cpu' = s.core cpu' := by
  have hstage : f.stage ≤ 6 := by cases f <;> decide
  have hpos : 0 < f.stage := by cases f <;> decide
  induction hn : remaining (s.core cpu) using Nat.strong_induction_on
    generalizing s with
  | h n ih =>
      subst hn
      by_cases hthere : ∃ word, (s.core cpu).current = some (c, .write f word)
      · obtain ⟨word, hcurrent⟩ := hthere
        exact ⟨[], s, word, rfl, hcurrent, fun _ _ => rfl⟩
      · have hmore :
            ¬((s.core cpu).current = none ∧ (s.core cpu).todo = []) := by
          rintro ⟨hcurrent, htodo⟩
          rcases hbefore with hmem | ⟨pc, hpc, -⟩
          · rw [htodo] at hmem
            exact absurd hmem List.not_mem_nil
          · rw [hcurrent] at hpc
            cases hpc
        obtain ⟨u, hu, hless⟩ := exists_step hmore
        have hbefore' : Before f c (u.core cpu) := by
          rcases step_cases hu with ⟨d, rest, hcurrent, htodo, rfl⟩ |
            ⟨d, pc, hcurrent, rfl⟩
          · rcases hbefore with hmem | ⟨pc, hpc, -⟩
            · rw [htodo] at hmem
              rcases List.mem_cons.mp hmem with rfl | hmem
              · right
                refine ⟨.read .group, ?_, hpos⟩
                simp [hc, CoreCalls.goto]
              · left
                simpa using hmem
            · rw [hcurrent] at hpc
              cases hpc
          · simp only [Function.update_self]
            rcases hbefore with hmem | ⟨pc', hpc', hlt⟩
            · left
              rw [todo_advance]
              exact hmem
            · rw [hcurrent, Option.some.injEq, Prod.mk.injEq] at hpc'
              obtain ⟨rfl, rfl⟩ := hpc'
              have hne : f.stage ≠ pc.accesses + 1 := by
                intro heq
                obtain ⟨word, rfl⟩ := (f.stage_eq_iff pc).mp heq
                exact hthere ⟨word, hcurrent⟩
              obtain ⟨pc', hnext, haccesses⟩ :=
                current_advance_of_lt (c := d) (s.core cpu) s.gicd
                  (show pc.accesses < 5 by omega)
              exact .inr ⟨pc', hnext, by omega⟩
        obtain ⟨as, t, word, hrun, hheld, hothers⟩ :=
          ih _ hless u hbefore' rfl
        refine ⟨cpu :: as, t, word,
          StepSystem.run_cons_eq_some.mpr ⟨u, hu, hrun⟩, hheld, ?_⟩
        intro cpu' hne
        rw [hothers cpu' hne, step_core_of_ne hu hne]

end Runs

/-- The other core reads the word before the bit is written and writes it back
afterwards. -/
theorem exists_lost
    {d : Gicd} {w : Workload} {cpu cpu' : DomainIndex} (hne : cpu ≠ cpu')
    {c c' : SpiCall} (hc : c ∈ w.calls cpu) (hc' : c' ∈ w.calls cpu')
    (hacc : c.Accepted) (hacc' : c'.Accepted) {f : Field}
    (hword : (f.place c.interruptId).word = (f.place c'.interruptId).word)
    (hclear : f.isSet d c.interruptId = false) :
    ∃ as t, StepSystem.run step (start d w.calls) as = some t ∧
      (t.fieldView f).Lost (f.place c.interruptId) := by
  have hid : f.place c.interruptId ≠ f.place c'.interruptId := fun heq =>
    w.disjoint cpu cpu' hne c hc c' hc' (f.place_injective heq)
  have hstart : ((start d w.calls).fieldView f).Untouched (f.bank d) :=
    ⟨fun _ _ => rfl, fun _ _ _ => nofun⟩
  have hinv : ∀ s a t, (s.Progress w ∧ (s.fieldView f).Untouched (f.bank d)) →
      step s a = some t →
        t.Progress w ∧ (t.fieldView f).Untouched (f.bank d) :=
    fun s a t hs ht => ⟨hs.1.step ht, untouched_step hs.1 hs.2 ht⟩
  -- the other core reads the word
  obtain ⟨as₁, s₁, word, hrun₁, hcurrent₁, hothers₁⟩ :=
    exists_run_held (start d w.calls) cpu' hacc' f (.inl hc')
  obtain ⟨hp₁, hu₁⟩ := StepSystem.run_preserves hinv
    ⟨progress_start d w, hstart⟩ hrun₁
  have hnot : f.place c.interruptId ∉ (s₁.fieldView f).written := by
    rintro ⟨cpu₀, c₀, hpast, heq⟩
    obtain ⟨rfl, rfl⟩ := w.eq_of_interruptId_eq (hp₁.mem_of_past hpast) hc
      (f.place_injective heq).symm
    rw [hothers₁ cpu₀ hne] at hpast
    rcases hpast.2 with hdone | ⟨pc, hcurrent, -⟩
    · exact absurd hdone List.not_mem_nil
    · cases hcurrent
  have hstale : word.getLsbD (f.place c.interruptId).bit = false :=
    (hu₁.held cpu' (f.place c'.interruptId) word
      (held_eq_some_iff.mpr ⟨c', hcurrent₁, rfl⟩) _ hnot hword).trans hclear
  -- the core makes its calls
  obtain ⟨as₂, s₂, hrun₂, hdone₂, hothers₂⟩ := exists_run_core_finished s₁ cpu
  obtain ⟨hp₂, -⟩ := StepSystem.run_preserves hinv ⟨hp₁, hu₁⟩ hrun₂
  have hcurrent₂ : (s₂.core cpu').current = some (c', .write f word) := by
    rw [hothers₂ cpu' hne.symm]
    exact hcurrent₁
  have hwritten₂ : f.place c.interruptId ∈ (s₂.fieldView f).written := by
    rw [hp₂.calls cpu, hdone₂.1, hdone₂.2] at hc
    exact ⟨cpu, c, ⟨hacc, .inl (by simpa using hc)⟩, rfl⟩
  have halone : ∀ j, j ≠ cpu' → (s₂.core j).held f = none := by
    intro j hj
    apply held_of_current_none
    by_cases hjc : j = cpu
    · rw [hjc]
      exact hdone₂.1
    · rw [hothers₂ j hjc, hothers₁ j hj]
      rfl
  -- the other core writes its copy back
  obtain ⟨s₃, hstep⟩ : ∃ s₃, s₂.step cpu' = some s₃ :=
    ⟨_, step_eq_some hcurrent₂⟩
  refine ⟨as₁ ++ (as₂ ++ [cpu']), s₃, ?_, ?_⟩
  · rw [StepSystem.run_append, hrun₁, Option.bind_some]
    exact StepSystem.run_concat_eq_some.mpr ⟨s₂, hrun₂, hstep⟩
  · rcases fieldView_step (f := f) hp₂ hstep with ⟨c₀, hread, -⟩ |
      ⟨c₀, word₀, hwrite, heq⟩ | ⟨hno, -⟩
    · rw [hcurrent₂] at hread
      cases hread
    · rw [hcurrent₂] at hwrite
      cases hwrite
      rw [heq]
      refine View.lost_of_write hwritten₂ hword hid hstale ?_
      intro j hj p' word' hheld
      have hnone : (s₂.fieldView f).held j = none := halone j hj
      rw [hnone] at hheld
      cases hheld
    · exact absurd hcurrent₂ (hno c' word)

end Configuring

/-- Every interleaving configures all interrupts and changes no other exactly
when no core adds a bit to a word in which another core sets a new one. -/
theorem configuredRight_iff_noSharedWord (d : Gicd) (w : Workload) :
    (∀ schedule t,
      StepSystem.run Configuring.step (.start d w.calls) schedule = some t →
        t.Finished → ConfiguredRight d w t.gicd) ↔
      NoSharedWord d w := by
  constructor
  · intro hright cpu cpu' hne c hc c' hc' hacc hacc' f hword
    by_contra hclear
    rw [Bool.not_eq_true] at hclear
    obtain ⟨as, s, hrun, hlost⟩ :=
      Configuring.exists_lost hne hc hc' hacc hacc' hword hclear
    obtain ⟨bs, t, hrest, hfinished⟩ := Configuring.exists_run_finished s
    have hall : StepSystem.run Configuring.step (.start d w.calls) (as ++ bs) =
        some t := by
      rw [StepSystem.run_append, hrun, Option.bind_some, hrest]
    have hprogress : s.Progress w :=
      StepSystem.run_preserves (fun _ _ _ hs ht => hs.step ht)
        (Configuring.progress_start d w) hrun
    obtain ⟨-, hlost⟩ := StepSystem.run_preserves
      (fun _ _ _ (hs : _ ∧ _) ht =>
        And.intro (hs.1.step ht) (Configuring.lost_step hs.1 hs.2 ht))
      (And.intro hprogress hlost) hrest
    have hconfigured := hright _ t hall hfinished
    have hset : f.isSet t.gicd c.interruptId = true := by
      cases f with
      | group => exact hconfigured.group cpu c hc hacc
      | trigger => exact hconfigured.trigger cpu c hc hacc
    have hfalse : f.isSet t.gicd c.interruptId = false := hlost.bank
    rw [hset] at hfalse
    cases hfalse
  · intro hshared schedule t hrun hfinished
    obtain ⟨hp, hs⟩ := StepSystem.run_preserves
      (fun _ _ _ (hs : _ ∧ _) ht =>
        And.intro (hs.1.step ht) (hs.2.step hshared hs.1 ht))
      (And.intro (Configuring.progress_start d w)
        (Configuring.coherent_start d w.calls)) hrun
    exact hs.configuredRight hp hfinished

/-- The call for interrupt `id` at the lowest payload priority value. -/
def callFor (id : ℕ) (hmin : 32 ≤ id) (hmax : id ≤ 187) : SpiCall where
  interruptId := id
  requestedPriority := payloadMinPriorityValue
  min_le := hmin
  le_max := hmax

/-- The first core configures interrupt 121 and the second interrupt 122. -/
def neighbours : Workload where
  calls
    | .cpu1 => [callFor 121 (by decide) (by decide)]
    | .cpu2 => [callFor 122 (by decide) (by decide)]
    | .cpu3 => []
  nodup cpu := by cases cpu <;> decide
  disjoint cpu cpu' hne := by
    cases cpu <;> cases cpu' <;> first | exact absurd rfl hne | decide

/-- The second core reads `IGROUPR[3]` before the first core writes it back,
and writes it back afterwards. -/
def neighboursSchedule : List DomainIndex :=
  [.cpu1, .cpu2, .cpu1, .cpu2, .cpu1, .cpu2] ++
    List.replicate 4 .cpu1 ++ List.replicate 4 .cpu2

/-- Interrupt 121 is not in group 1 at the end. -/
theorem not_configuredRight_neighbours :
    ¬∀ schedule t,
      StepSystem.run Configuring.step
          (.start Interrupts.reset.gicd neighbours.calls) schedule = some t →
        t.Finished → ConfiguredRight Interrupts.reset.gicd neighbours t.gicd := by
  intro hright
  have hrun : (StepSystem.run Configuring.step
      (.start Interrupts.reset.gicd neighbours.calls)
        neighboursSchedule).any (fun t =>
          !t.gicd.inGroup1 121 &&
            decide ((t.core .cpu1).current = none ∧ (t.core .cpu1).todo = []) &&
            decide ((t.core .cpu2).current = none ∧ (t.core .cpu2).todo = []) &&
            decide ((t.core .cpu3).current = none ∧
              (t.core .cpu3).todo = [])) = true := by
    decide
  obtain ⟨t, ht, htest⟩ := (Option.any_eq_true _ _).mp hrun
  simp only [Bool.and_eq_true, Bool.not_eq_true', decide_eq_true_eq] at htest
  obtain ⟨⟨⟨hgroup, h1⟩, h2⟩, h3⟩ := htest
  have hfinished : t.Finished := by
    intro cpu
    cases cpu with
    | cpu1 => exact h1
    | cpu2 => exact h2
    | cpu3 => exact h3
  have hset := (hright _ t ht hfinished).group .cpu1
    (callFor 121 (by decide) (by decide)) (by simp [neighbours]) (by decide)
  exact Bool.false_ne_true (hgroup.symm.trans hset)

end Bmboot
