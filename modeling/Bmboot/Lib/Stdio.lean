import Mathlib.Data.List.Basic
import Mathlib.Tactic.SplitIfs

/-!
# Writing to a stream

A stream to which byte strings are written one after another, where every write
may fall short.  Writing stops at the first write that does.  Streams are
unbuffered: a write's bytes reach the file at once or not at all, and closing the
stream does not fail.  This module is independent of what is written.
-/

namespace Stdio

/-! ## Streams -/

/-- How the calls turn out: whether the file can be opened, and by how many
bytes each write falls short. -/
structure Outcomes where
  opens : Bool
  shortfall : ℕ → ℕ

/-- What the file holds, how many writes there have been, and whether the stream
is closed. -/
structure Stream where
  file : List UInt8
  writes : ℕ
  closed : Bool
  deriving DecidableEq

def Stream.empty : Stream := { file := [], writes := 0, closed := false }

/-- What `fopen(.., "wb")` gives: no stream, or one for an empty file. -/
def fopen (o : Outcomes) : Option Stream := if o.opens then some .empty else none

def fclose (f : Stream) : Stream := { f with closed := true }

/-- The number of bytes of `data` that the `k`-th write writes. -/
def Outcomes.written (o : Outcomes) (k : ℕ) (data : List UInt8) : ℕ :=
  data.length - o.shortfall k

/-- `fwrite(data, 1, size, f)`. -/
def fwrite (o : Outcomes) (data : List UInt8) (f : Stream) : ℕ × Stream :=
  let count := o.written f.writes data
  (count, { f with file := f.file ++ data.take count, writes := f.writes + 1 })

/-- Something done with a stream that may be given up, and then returns
false. -/
abbrev Action := Stream → Bool × Stream

/-- `fwrite(data, 1, size, f) == size`. -/
def checkedWrite (o : Outcomes) (data : List UInt8) : Action := fun f =>
  ((fwrite o data f).1 = data.length, (fwrite o data f).2)

/-- Go on if the first action has not been given up. -/
def Action.andThen (first second : Action) : Action := fun f =>
  if (first f).1 then second (first f).2 else first f

def nothing : Action := fun f => (true, f)

/-- A loop of writes. -/
def writeEach (o : Outcomes) : List (List UInt8) → Action
  | [] => nothing
  | data :: rest => (checkedWrite o data).andThen (writeEach o rest)

/-- None of the writes, the first of which is the `k`-th one, falls short. -/
def Outcomes.CompleteFrom (o : Outcomes) : ℕ → List (List UInt8) → Prop
  | _, [] => True
  | k, data :: rest =>
      o.written k data = data.length ∧ o.CompleteFrom (k + 1) rest

/-! ## Sequences of writes -/

variable {o : Outcomes}

theorem Action.andThen_assoc (a b c : Action) :
    (a.andThen b).andThen c = a.andThen (b.andThen c) := by
  funext f
  by_cases h : (a f).1 = true
  · simp [Action.andThen, h]
  · simp [Action.andThen, h]

theorem Action.nothing_andThen (a : Action) : Action.andThen nothing a = a := rfl

theorem Action.andThen_nothing (a : Action) : a.andThen nothing = a := by
  funext f
  rw [Action.andThen]
  split_ifs with h
  · exact Prod.ext h.symm rfl
  · rfl

theorem checkedWrite_eq_writeEach (data : List UInt8) :
    checkedWrite o data = writeEach o [data] :=
  (Action.andThen_nothing _).symm

theorem writeEach_append (before after : List (List UInt8)) :
    writeEach o (before ++ after) =
      (writeEach o before).andThen (writeEach o after) := by
  induction before with
  | nil => exact (Action.nothing_andThen _).symm
  | cons data before ih =>
      rw [List.cons_append, writeEach, ih, writeEach, Action.andThen_assoc]

/-- A write that does not fall short. -/
theorem checkedWrite_of_written
    {data : List UInt8} {f : Stream}
    (h : o.written f.writes data = data.length) :
    checkedWrite o data f =
      (true, { f with file := f.file ++ data, writes := f.writes + 1 }) := by
  simp [checkedWrite, fwrite, h]

/-- Writes that do not fall short put all the data into the file. -/
theorem writeEach_of_complete
    {chunks : List (List UInt8)} {f : Stream}
    (h : o.CompleteFrom f.writes chunks) :
    writeEach o chunks f =
      (true,
        { f with
          file := f.file ++ chunks.flatten
          writes := f.writes + chunks.length }) := by
  induction chunks generalizing f with
  | nil => simp [writeEach, nothing]
  | cons data rest ih =>
      obtain ⟨hdata, hrest⟩ := h
      rw [writeEach, Action.andThen, checkedWrite_of_written hdata, if_pos rfl,
        ih hrest]
      simp [Nat.add_comm, Nat.add_left_comm]

/-- If some write falls short, the others are given up, and the file is shorter
than it should be. -/
theorem writeEach_of_not_complete
    {chunks : List (List UInt8)} {f : Stream}
    (h : ¬o.CompleteFrom f.writes chunks) :
    (writeEach o chunks f).1 = false ∧
      (writeEach o chunks f).2.closed = f.closed ∧
      (writeEach o chunks f).2.file.length <
        (f.file ++ chunks.flatten).length := by
  induction chunks generalizing f with
  | nil => exact absurd trivial h
  | cons data rest ih =>
      rw [writeEach, Action.andThen]
      by_cases hdata : o.written f.writes data = data.length
      · have hrest : ¬o.CompleteFrom (f.writes + 1) rest :=
          fun hrest => h ⟨hdata, hrest⟩
        rw [checkedWrite_of_written hdata, if_pos rfl]
        have htail := ih (f :=
          { f with file := f.file ++ data, writes := f.writes + 1 }) hrest
        rw [List.append_assoc] at htail
        exact htail
      · have hshort : o.written f.writes data < data.length :=
          Nat.lt_of_le_of_ne (Nat.sub_le _ _) hdata
        have hwrite : checkedWrite o data f = (false, (fwrite o data f).2) := by
          simp [checkedWrite, fwrite, hdata]
        rw [hwrite]
        refine ⟨rfl, rfl, ?_⟩
        simp only [fwrite, List.length_append, List.length_take,
          List.flatten_cons, Bool.false_eq_true, if_false]
        omega

end Stdio
