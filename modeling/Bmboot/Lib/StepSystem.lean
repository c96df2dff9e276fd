import Mathlib.Logic.Basic
import Mathlib.Data.List.Induction
import Mathlib.Data.Option.Basic

/-!
# Step systems

A step system is a partial step function: an action is either refused in a
state or leads to exactly one successor, and all nondeterminism sits in the
choice of the action.  This module is independent of any particular system.

`run` executes a schedule of actions.  `Reachable` collects the states of all
runs from a set of initial states whose steps obey a side condition, and
carries the induction principle that every invariant proof uses.
-/

namespace StepSystem

variable {σ α : Type*}

/-- Execute a schedule from left to right, stopping at the first refusal. -/
def run (step : σ → α → Option σ) : σ → List α → Option σ
  | s, [] => some s
  | s, a :: as => (step s a).bind fun t => run step t as

theorem run_cons_eq_some
    {step : σ → α → Option σ} {s u : σ} {a : α} {as : List α} :
    run step s (a :: as) = some u ↔
      ∃ t, step s a = some t ∧ run step t as = some u :=
  Option.bind_eq_some_iff

theorem run_append
    (step : σ → α → Option σ) (s : σ) (as bs : List α) :
    run step s (as ++ bs) =
      (run step s as).bind fun t => run step t bs := by
  induction as generalizing s with
  | nil => rfl
  | cons a as ih =>
      cases h : step s a with
      | none => simp [run, h]
      | some t => simp [run, h, ih]

/-- A property kept by every step is kept by every run. -/
theorem run_preserves
    {step : σ → α → Option σ} {Inv : σ → Prop}
    (hstep : ∀ s a t, Inv s → step s a = some t → Inv t)
    {s t : σ} {as : List α}
    (hs : Inv s) (hrun : run step s as = some t) : Inv t := by
  induction as generalizing s with
  | nil =>
      cases hrun
      exact hs
  | cons a as ih =>
      obtain ⟨u, hu, hrest⟩ := run_cons_eq_some.mp hrun
      exact ih (hstep s a u hs hu) hrest

/-- The property holds after every part of the schedule that is executed. -/
def Throughout (step : σ → α → Option σ) (s : σ) (as : List α)
    (P : σ → Prop) : Prop :=
  ∀ before t, before <+: as → run step s before = some t → P t

/-- Every step that the schedule takes meets the condition. -/
def EachStep (step : σ → α → Option σ) (s : σ) (as : List α)
    (Q : σ → α → Prop) : Prop :=
  ∀ before a t u, before ++ [a] <+: as → run step s before = some t →
    step t a = some u → Q t a

theorem run_concat_eq_some
    {step : σ → α → Option σ} {s u : σ} {a : α} {as : List α} :
    run step s (as ++ [a]) = some u ↔
      ∃ t, run step s as = some t ∧ step t a = some u := by
  simp [run_append, run, Option.bind_eq_some_iff]

theorem eachStep_nil
    {step : σ → α → Option σ} {s : σ} {Q : σ → α → Prop} :
    EachStep step s [] Q := by
  intro before a t u hprefix
  have hempty := List.prefix_nil.mp hprefix
  exact absurd hempty (List.append_ne_nil_of_right_ne_nil _ (by simp))

theorem eachStep_cons
    {step : σ → α → Option σ} {s : σ} {a : α} {as : List α}
    {Q : σ → α → Prop} :
    EachStep step s (a :: as) Q ↔
      ∀ t, step s a = some t → Q s a ∧ EachStep step t as Q := by
  constructor
  · intro heach t ht
    refine ⟨heach [] a s t ?_ rfl ht, ?_⟩
    · exact List.prefix_append [a] as
    · intro before b u v hprefix hrun hv
      exact heach (a :: before) b u v ((List.prefix_cons_inj a).mpr hprefix)
        (run_cons_eq_some.mpr ⟨t, ht, hrun⟩) hv
  · intro heach before b u v hprefix hrun hv
    cases before with
    | nil =>
        obtain ⟨rfl, -⟩ := List.cons_prefix_cons.mp hprefix
        obtain rfl := Option.some.inj hrun
        exact (heach v hv).1
    | cons c before =>
        obtain ⟨rfl, hrest⟩ := List.cons_prefix_cons.mp hprefix
        obtain ⟨t, ht, hrun⟩ := run_cons_eq_some.mp hrun
        exact (heach t ht).2 before b u v hrest hrun hv

/-- A property kept by every step that meets a condition is kept by every run
whose steps meet it. -/
theorem run_preserves_of_eachStep
    {step : σ → α → Option σ} {Inv : σ → Prop} {Q : σ → α → Prop}
    (hstep : ∀ s a t, Inv s → step s a = some t → Q s a → Inv t)
    {s t : σ} {as : List α}
    (hs : Inv s) (heach : EachStep step s as Q)
    (hrun : run step s as = some t) : Inv t := by
  induction as using List.reverseRecOn generalizing t with
  | nil =>
      cases hrun
      exact hs
  | append_singleton as a ih =>
      obtain ⟨u, hu, ht⟩ := run_concat_eq_some.mp hrun
      have hinv : Inv u := ih (fun before b v w hinit =>
        heach before b v w (hinit.trans (List.prefix_append _ _))) hu
      exact hstep u a t hinv ht (heach as a u t (List.prefix_refl _) hu ht)

/-- A condition that decides, below an invariant, whether one step keeps a
property decides whether a whole run keeps it. -/
theorem throughout_iff_eachStep
    {step : σ → α → Option σ} {Inv P : σ → Prop} {Q : σ → α → Prop}
    (hstep : ∀ s a t, Inv s → step s a = some t → Inv t)
    (hexact : ∀ s a t, Inv s → P s → step s a = some t → (P t ↔ Q s a))
    {s : σ} (hs : Inv s) (hp : P s) (as : List α) :
    Throughout step s as P ↔ EachStep step s as Q := by
  constructor
  · intro hall before a t u hprefix hrun hu
    have ht : P t := hall before t ((List.prefix_append _ _).trans hprefix) hrun
    have hinv : Inv t := run_preserves hstep hs hrun
    exact (hexact t a u hinv ht hu).mp
      (hall _ u hprefix (run_concat_eq_some.mpr ⟨t, hrun, hu⟩))
  · intro heach before
    induction before using List.reverseRecOn with
    | nil =>
        intro t _ hrun
        cases hrun
        exact hp
    | append_singleton before a ih =>
        intro u hprefix hrun
        obtain ⟨t, ht, hu⟩ := run_concat_eq_some.mp hrun
        have hpt : P t := ih t ((List.prefix_append _ _).trans hprefix) ht
        have hinv : Inv t := run_preserves hstep hs ht
        exact (hexact t a u hinv hpt hu).mpr (heach before a t u hprefix ht hu)

/-- Below an invariant, runs whose steps all meet one condition are those whose
steps all meet another that agrees with it step by step. -/
theorem eachStep_congr
    {step : σ → α → Option σ} {Inv : σ → Prop} {P Q : σ → α → Prop}
    (hstep : ∀ s a t, Inv s → step s a = some t → Inv t)
    (hexact : ∀ s a t, Inv s → step s a = some t → (P s a ↔ Q s a))
    {s : σ} (hs : Inv s) (as : List α) :
    EachStep step s as P ↔ EachStep step s as Q := by
  constructor
  · intro heach before a t u hprefix hrun hu
    have hinv : Inv t := run_preserves hstep hs hrun
    exact (hexact t a u hinv hu).mp (heach before a t u hprefix hrun hu)
  · intro heach before a t u hprefix hrun hu
    have hinv : Inv t := run_preserves hstep hs hrun
    exact (hexact t a u hinv hu).mpr (heach before a t u hprefix hrun hu)

/-- Where no step short of the goal raises a measure, and the counted ones lower
it, every run with enough of them has come past the goal. -/
theorem exists_prefix_of_measure
    {step : σ → α → Option σ} {Inv Goal : σ → Prop} {counted : α → Bool}
    {measure : σ → ℕ}
    (hstep : ∀ s a t, Inv s → ¬Goal s → step s a = some t →
      Inv t ∧ measure t + (if counted a then 1 else 0) ≤ measure s)
    (hpos : ∀ s, Inv s → ¬Goal s → 0 < measure s)
    {s t : σ} {as : List α} (hs : Inv s) (hrun : run step s as = some t)
    (hcount : measure s ≤ as.countP counted) :
    ∃ before, before <+: as ∧ ∃ u, run step s before = some u ∧ Goal u := by
  induction as generalizing s with
  | nil =>
      by_cases hgoal : Goal s
      · exact ⟨[], List.prefix_refl _, s, rfl, hgoal⟩
      · have hlt := hpos s hs hgoal
        rw [List.countP_nil] at hcount
        omega
  | cons a as ih =>
      by_cases hgoal : Goal s
      · exact ⟨[], List.nil_prefix, s, rfl, hgoal⟩
      · obtain ⟨u, hu, hrest⟩ := run_cons_eq_some.mp hrun
        obtain ⟨hinv, hle⟩ := hstep s a u hs hgoal hu
        rw [List.countP_cons] at hcount
        obtain ⟨before, hprefix, v, hv, hv'⟩ := ih hinv hrest (by omega)
        exact ⟨a :: before, (List.prefix_cons_inj a).mpr hprefix, v,
          run_cons_eq_some.mpr ⟨u, hu, hv⟩, hv'⟩

/-- Where some step towards the goal can always be taken, some run gets there. -/
theorem exists_run_of_measure
    {step : σ → α → Option σ} {Inv Goal : σ → Prop} {measure : σ → ℕ}
    (hstep : ∀ s, Inv s → ¬Goal s →
      ∃ a t, step s a = some t ∧ Inv t ∧ measure t < measure s)
    {s : σ} (hs : Inv s) : ∃ as t, run step s as = some t ∧ Goal t := by
  generalize hn : measure s = n
  induction n using Nat.strongRecOn generalizing s with
  | ind n ih =>
      by_cases hgoal : Goal s
      · exact ⟨[], s, rfl, hgoal⟩
      · obtain ⟨a, u, hu, hinv, hlt⟩ := hstep s hs hgoal
        obtain ⟨as, t, hrun, ht⟩ := ih (measure u) (hn ▸ hlt) hinv rfl
        exact ⟨a :: as, t, run_cons_eq_some.mpr ⟨u, hu, hrun⟩, ht⟩

/-- As `exists_run_of_measure`, with steps of one kind only. -/
theorem exists_run_of_measure_of
    {step : σ → α → Option σ} {Inv Goal : σ → Prop} {P : α → Prop}
    {measure : σ → ℕ}
    (hstep : ∀ s, Inv s → ¬Goal s →
      ∃ a t, P a ∧ step s a = some t ∧ Inv t ∧ measure t < measure s)
    {s : σ} (hs : Inv s) :
    ∃ as t, (∀ a ∈ as, P a) ∧ run step s as = some t ∧ Inv t ∧ Goal t := by
  generalize hn : measure s = n
  induction n using Nat.strongRecOn generalizing s with
  | ind n ih =>
      by_cases hgoal : Goal s
      · exact ⟨[], s, nofun, rfl, hs, hgoal⟩
      · obtain ⟨a, u, ha, hu, hinv, hlt⟩ := hstep s hs hgoal
        obtain ⟨as, t, has, hrun, ht⟩ := ih (measure u) (hn ▸ hlt) hinv rfl
        exact ⟨a :: as, t, List.forall_mem_cons.mpr ⟨ha, has⟩,
          run_cons_eq_some.mpr ⟨u, hu, hrun⟩, ht⟩

/-- Some run with steps of one kind leads from one state to the other. -/
def Reaches (step : σ → α → Option σ) (P : α → Prop) (s t : σ) : Prop :=
  ∃ as, (∀ a ∈ as, P a) ∧ run step s as = some t

theorem Reaches.refl (step : σ → α → Option σ) (P : α → Prop) (s : σ) :
    Reaches step P s s :=
  ⟨[], List.forall_mem_nil _, rfl⟩

theorem Reaches.head
    {step : σ → α → Option σ} {P : α → Prop} {s t u : σ} {a : α}
    (h : step s a = some t) (ha : P a) (hrest : Reaches step P t u) : Reaches step P s u := by
  obtain ⟨as, has, hrun⟩ := hrest
  exact ⟨a :: as, List.forall_mem_cons.mpr ⟨ha, has⟩,
    run_cons_eq_some.mpr ⟨t, h, hrun⟩⟩

theorem Reaches.trans
    {step : σ → α → Option σ} {P : α → Prop} {s t u : σ} (h : Reaches step P s t)
    (hrest : Reaches step P t u) : Reaches step P s u := by
  obtain ⟨as, has, hrun⟩ := h
  obtain ⟨bs, hbs, hrun'⟩ := hrest
  refine ⟨as ++ bs, List.forall_mem_append.mpr ⟨has, hbs⟩, ?_⟩
  rw [run_append, hrun, Option.bind_some, hrun']

/-- An invariant that steps of one kind keep holds after a run of them. -/
theorem run_preserves_of
    {step : σ → α → Option σ} {Inv : σ → Prop} {P : α → Prop}
    (hstep : ∀ s a t, Inv s → P a → step s a = some t → Inv t)
    {s t : σ} {as : List α} (hs : Inv s) (has : ∀ a ∈ as, P a)
    (hrun : run step s as = some t) : Inv t := by
  induction as generalizing s with
  | nil =>
      cases hrun
      exact hs
  | cons a as ih =>
      obtain ⟨u, hu, hrest⟩ := run_cons_eq_some.mp hrun
      obtain ⟨ha, has'⟩ := List.forall_mem_cons.mp has
      exact ih (hstep s a u hs ha hu) has' hrest

/-- A forward simulation with stuttering: below the invariant, every step of
the concrete system is invisible to the abstraction or is one abstract step. -/
def Simulates {τ β : Type*}
    (step : σ → α → Option σ) (step' : τ → β → Option τ)
    (abs : σ → τ) (Inv : σ → Prop) : Prop :=
  ∀ s a t, Inv s → step s a = some t →
    abs t = abs s ∨ ∃ b, step' (abs s) b = some (abs t)

/-- A simulation turns every concrete run into an abstract one between the
abstractions of its ends. -/
theorem Simulates.run {τ β : Type*}
    {step : σ → α → Option σ} {step' : τ → β → Option τ}
    {abs : σ → τ} {Inv : σ → Prop}
    (hsim : Simulates step step' abs Inv)
    (hstep : ∀ s a t, Inv s → step s a = some t → Inv t)
    {s t : σ} {as : List α}
    (hs : Inv s) (hrun : StepSystem.run step s as = some t) :
    ∃ bs, StepSystem.run step' (abs s) bs = some (abs t) := by
  induction as generalizing s with
  | nil =>
      cases hrun
      exact ⟨[], rfl⟩
  | cons a as ih =>
      obtain ⟨u, hu, hrest⟩ := run_cons_eq_some.mp hrun
      obtain ⟨bs, hbs⟩ := ih (hstep s a u hs hu) hrest
      rcases hsim s a u hs hu with hstutter | ⟨b, hb⟩
      · exact ⟨bs, hstutter ▸ hbs⟩
      · exact ⟨b :: bs, run_cons_eq_some.mpr ⟨abs u, hb, hbs⟩⟩

/-- The states of all runs that start in `init` and only take steps allowed
by `allowed`. -/
inductive Reachable
    (step : σ → α → Option σ) (init : σ → Prop) (allowed : σ → α → Prop) :
    σ → Prop
  | init {s : σ} (hs : init s) : Reachable step init allowed s
  | step {s t : σ} {a : α} (hs : Reachable step init allowed s)
      (ha : allowed s a) (ht : step s a = some t) :
      Reachable step init allowed t

/-- The side condition of an unrestricted run. -/
def anyStep : σ → α → Prop := fun _ _ => True

/-- An invariant of the initial states that every allowed step keeps holds in
every reachable state.  The step hypothesis may use that the state before the
step is reachable, so earlier invariants are at hand. -/
theorem Reachable.invariant
    {step : σ → α → Option σ} {init : σ → Prop} {allowed : σ → α → Prop}
    {Inv : σ → Prop}
    (hinit : ∀ s, init s → Inv s)
    (hstep : ∀ s a t, Reachable step init allowed s → Inv s →
      allowed s a → step s a = some t → Inv t)
    {s : σ} (h : Reachable step init allowed s) : Inv s := by
  induction h with
  | init hs => exact hinit _ hs
  | step hs ha ht ih => exact hstep _ _ _ hs ih ha ht

/-- Relaxing the side condition keeps every reachable state. -/
theorem Reachable.mono
    {step : σ → α → Option σ} {init : σ → Prop}
    {allowed allowed' : σ → α → Prop}
    (himp : ∀ s a, allowed s a → allowed' s a)
    {s : σ} (h : Reachable step init allowed s) :
    Reachable step init allowed' s := by
  induction h with
  | init hs => exact .init hs
  | step _ ha ht ih => exact .step ih (himp _ _ ha) ht

/-- So does starting from more states. -/
theorem Reachable.mono_init
    {step : σ → α → Option σ} {init init' : σ → Prop}
    {allowed : σ → α → Prop} (himp : ∀ s, init s → init' s)
    {s : σ} (h : Reachable step init allowed s) :
    Reachable step init' allowed s := by
  induction h with
  | init hs => exact .init (himp _ hs)
  | step _ ha ht ih => exact .step ih ha ht

/-- Forgetting the side condition altogether. -/
theorem Reachable.toAny
    {step : σ → α → Option σ} {init : σ → Prop} {allowed : σ → α → Prop}
    {s : σ} (h : Reachable step init allowed s) :
    Reachable step init anyStep s :=
  h.mono fun _ _ _ => trivial

/-- A run extends reachability when every step may be taken. -/
theorem Reachable.run
    {step : σ → α → Option σ} {init : σ → Prop}
    {s t : σ} {as : List α}
    (hs : Reachable step init anyStep s) (hrun : run step s as = some t) :
    Reachable step init anyStep t :=
  run_preserves (fun _ _ _ h ht => .step h trivial ht) hs hrun

/-- A schedule whose outcome passes a test yields a reachable state that passes
it. -/
theorem exists_reachable_of_run
    (step : σ → α → Option σ) {init : σ → Prop} {s : σ} (as : List α)
    (P : σ → Prop) [DecidablePred P] (hs : init s)
    (htest : (StepSystem.run step s as).any (fun t => decide (P t)) = true) :
    ∃ t, StepSystem.run step s as = some t ∧
      Reachable step init anyStep t ∧ P t := by
  obtain ⟨t, ht, hp⟩ := (Option.any_eq_true _ _).mp htest
  exact ⟨t, ht, (Reachable.init hs).run ht, of_decide_eq_true hp⟩

/-- The step function that refuses what the side condition forbids. -/
def restrict (step : σ → α → Option σ) (allowed : σ → α → Prop)
    [∀ s a, Decidable (allowed s a)] (s : σ) (a : α) : Option σ :=
  if allowed s a then step s a else none

/-- A schedule of allowed steps extends reachability. -/
theorem Reachable.restrict_run
    {step : σ → α → Option σ} {init : σ → Prop} {allowed : σ → α → Prop}
    [∀ s a, Decidable (allowed s a)] {s t : σ} {as : List α}
    (hs : Reachable step init allowed s)
    (hrun : StepSystem.run (restrict step allowed) s as = some t) :
    Reachable step init allowed t := by
  refine run_preserves ?_ hs hrun
  intro s a t hreach ht
  simp only [restrict] at ht
  split at ht
  next hallowed => exact .step hreach hallowed ht
  · cases ht

/-- As `exists_reachable_of_run`, for a schedule of allowed steps. -/
theorem exists_reachable_of_restrict_run
    (step : σ → α → Option σ) {init : σ → Prop} (allowed : σ → α → Prop)
    [∀ s a, Decidable (allowed s a)] {s : σ} (as : List α)
    (P : σ → Prop) [DecidablePred P] (hs : init s)
    (htest : (StepSystem.run (restrict step allowed) s as).any
      (fun t => decide (P t)) = true) :
    ∃ t, Reachable step init allowed t ∧ P t := by
  obtain ⟨t, ht, hp⟩ := (Option.any_eq_true _ _).mp htest
  exact ⟨t, (Reachable.init hs).restrict_run ht, of_decide_eq_true hp⟩

/-- What is not refused is a run of the system. -/
theorem run_of_restrict_run
    {step : σ → α → Option σ} {allowed : σ → α → Prop}
    [∀ s a, Decidable (allowed s a)] {s t : σ} {as : List α}
    (h : run (restrict step allowed) s as = some t) : run step s as = some t := by
  induction as generalizing s with
  | nil => exact h
  | cons a as ih =>
      obtain ⟨u, hu, hrest⟩ := run_cons_eq_some.mp h
      simp only [restrict] at hu
      split at hu
      · exact run_cons_eq_some.mpr ⟨u, hu, ih hrest⟩
      · cases hu

/-- As `exists_reachable_of_restrict_run`, with the run itself. -/
theorem exists_run_of_restrict_run
    (step : σ → α → Option σ) {init : σ → Prop} (allowed : σ → α → Prop)
    [∀ s a, Decidable (allowed s a)] {s : σ} (as : List α)
    (P : σ → Prop) [DecidablePred P] (hs : init s)
    (htest : (StepSystem.run (restrict step allowed) s as).any
      (fun t => decide (P t)) = true) :
    ∃ t, StepSystem.run step s as = some t ∧
      Reachable step init allowed t ∧ P t := by
  obtain ⟨t, ht, hp⟩ := (Option.any_eq_true _ _).mp htest
  exact ⟨t, run_of_restrict_run ht, (Reachable.init hs).restrict_run ht,
    of_decide_eq_true hp⟩

end StepSystem
