import Bmboot.Ipc
import Mathlib.Data.List.ReduceOption
import Mathlib.Data.List.TakeWhile
import Mathlib.Order.Basic
import Mathlib.Tactic.SplitIfs

/-!
# The console thread

`runConsole` (`domain_helpers.cpp`) polls `getchar` until it is interrupted,
collects what it gets, and prints it line by line.
-/

namespace Bmboot

/-! ## The loop -/

def maxLineLength : ℕ := 160

def newline : UInt8 := 10

/-- What `%s` prints of a string given by `c_str()`. -/
def cStr (text : List UInt8) : List UInt8 := text.takeWhile (· ≠ 0)

/-- The stream `stdout_accum`, and the texts printed so far. -/
structure LinePrinter where
  accum : List UInt8
  printed : List (List UInt8)
  deriving DecidableEq

namespace LinePrinter

def start : LinePrinter := { accum := [], printed := [] }

def flush (s : LinePrinter) : LinePrinter :=
  { accum := [], printed := s.printed ++ [cStr s.accum] }

/-- One round, with the result of `getchar`. -/
def onChar (s : LinePrinter) : Option UInt8 → LinePrinter
  | none => s
  | some c =>
      if c = newline then s.flush
      else
        let s : LinePrinter := { s with accum := s.accum ++ [c] }
        if s.accum.length ≥ maxLineLength then s.flush else s

def loop (s : LinePrinter) (chars : List (Option UInt8)) : LinePrinter :=
  chars.foldl onChar s

/-- What follows the loop. -/
def finish (s : LinePrinter) : LinePrinter :=
  if s.accum.length > 0 then s.flush else s

end LinePrinter

/-- The texts `runConsole` prints when `getchar` gives these results before the
interruption. -/
def runConsole (chars : List (Option UInt8)) : List (List UInt8) :=
  (LinePrinter.start.loop chars).finish.printed

/-! ## Lines of the input -/

/-- A line of the input that a newline ends. -/
structure InputLine (chars : List (Option UInt8)) where
  before : List (Option UInt8)
  line : List (Option UInt8)
  after : List (Option UInt8)
  input : chars = before ++ line ++ some newline :: after
  starts : before = [] ∨ ∃ earlier, before = earlier ++ [some newline]
  unbroken : some newline ∉ line

namespace InputLine

variable {chars : List (Option UInt8)} (l : InputLine chars)

/-- The number of bytes, without the newline. -/
def length : ℕ := l.line.reduceOption.length

/-- The lines printed from the first byte up to the newline. -/
def printedLines : ℕ :=
  (LinePrinter.start.loop (l.before ++ l.line ++ [some newline])).printed.length -
    (LinePrinter.start.loop l.before).printed.length

end InputLine

/-- The console prints the payload's text. -/
structure PrintsText (chars : List (Option UInt8)) : Prop where
  polls : ∀ chars', chars'.reduceOption = chars.reduceOption →
    runConsole chars' = runConsole chars
  short : ∀ text ∈ runConsole chars, text.length ≤ maxLineLength
  text : (runConsole chars).flatten =
    chars.reduceOption.filter (· ≠ newline)
  lines : ∀ l : InputLine chars,
    l.printedLines = max 1 ((l.length + (maxLineLength - 1)) / maxLineLength)

namespace LinePrinter

/-! ## Polls -/

/-- Polls that find nothing change nothing. -/
theorem loop_reduceOption (s : LinePrinter) (chars : List (Option UInt8)) :
    s.loop (chars.reduceOption.map some) = s.loop chars := by
  induction chars generalizing s with
  | nil => rfl
  | cons c chars ih =>
      cases c with
      | none =>
          rw [List.reduceOption_cons_of_none]
          exact ih s
      | some c =>
          rw [List.reduceOption_cons_of_some]
          exact ih (s.onChar (some c))

theorem loop_append (s : LinePrinter) (chars rest : List (Option UInt8)) :
    s.loop (chars ++ rest) = (s.loop chars).loop rest :=
  List.foldl_append

/-- What every round preserves. -/
theorem loop_preserves (P : LinePrinter → Prop)
    (hround : ∀ s c, P s → P (s.onChar c)) (chars : List (Option UInt8))
    {s : LinePrinter} (hs : P s) : P (s.loop chars) := by
  induction chars generalizing s with
  | nil => exact hs
  | cons c chars ih => exact ih (hround s c hs)

/-! ## What the texts are -/

/-- The text of a line that is not complete is shorter than the limit, and no
printed text is longer. -/
structure WithinLimit (s : LinePrinter) : Prop where
  accum : s.accum.length < maxLineLength
  printed : ∀ text ∈ s.printed, text.length ≤ maxLineLength

theorem length_cStr_le (text : List UInt8) : (cStr text).length ≤ text.length :=
  (List.takeWhile_prefix _).length_le

theorem not_mem_cStr (text : List UInt8) : 0 ∉ cStr text := by
  intro h
  have hne := List.mem_takeWhile_imp h
  simp at hne

theorem cStr_eq_self {text : List UInt8} (h : 0 ∉ text) : cStr text = text := by
  apply List.takeWhile_eq_self_iff.mpr
  intro c hc
  have hne : c ≠ 0 := fun h0 => h (h0 ▸ hc)
  simpa using hne

theorem withinLimit_flush
    {s : LinePrinter} (haccum : s.accum.length ≤ maxLineLength)
    (hprinted : ∀ text ∈ s.printed, text.length ≤ maxLineLength) :
    s.flush.WithinLimit := by
  constructor
  · exact Nat.zero_lt_succ _
  · intro text htext
    rcases List.mem_append.mp htext with h | h
    · exact hprinted text h
    · rw [List.mem_singleton.mp h]
      exact (length_cStr_le _).trans haccum

theorem withinLimit_onChar
    {s : LinePrinter} (hs : s.WithinLimit) (c : Option UInt8) :
    (s.onChar c).WithinLimit := by
  cases c with
  | none => exact hs
  | some c =>
      have haccum := hs.accum
      simp only [onChar]
      split_ifs with hnewline hlong
      · exact withinLimit_flush hs.accum.le hs.printed
      · apply withinLimit_flush
        · rw [List.length_append, List.length_singleton]
          exact haccum
        · exact hs.printed
      · exact ⟨Nat.lt_of_not_le hlong, hs.printed⟩

theorem withinLimit_start : start.WithinLimit := by
  constructor
  · exact Nat.zero_lt_succ _
  · intro text htext
    cases htext

theorem withinLimit_finish {s : LinePrinter} (hs : s.WithinLimit) :
    s.finish.WithinLimit := by
  rw [finish]
  split_ifs
  · exact withinLimit_flush hs.accum.le hs.printed
  · exact hs

/-! ## What becomes of the bytes -/

/-- No printed text has a NUL. -/
def NulFree (s : LinePrinter) : Prop := ∀ text ∈ s.printed, 0 ∉ text

theorem nulFree_flush {s : LinePrinter} (hs : s.NulFree) : s.flush.NulFree := by
  intro text htext
  rcases List.mem_append.mp htext with h | h
  · exact hs text h
  · rw [List.mem_singleton.mp h]
    exact not_mem_cStr _

theorem nulFree_onChar
    {s : LinePrinter} (hs : s.NulFree) (c : Option UInt8) :
    (s.onChar c).NulFree := by
  cases c with
  | none => exact hs
  | some c =>
      simp only [onChar]
      split_ifs
      · exact nulFree_flush hs
      · exact nulFree_flush hs
      · exact hs

theorem nulFree_finish {s : LinePrinter} (hs : s.NulFree) :
    s.finish.NulFree := by
  rw [finish]
  split_ifs
  · exact nulFree_flush hs
  · exact hs

/-- What has been printed, and what is still to be printed. -/
def text (s : LinePrinter) : List UInt8 := s.printed.flatten ++ s.accum

theorem text_flush {s : LinePrinter} (h : 0 ∉ s.accum) :
    s.flush.text = s.text := by
  simp [text, flush, cStr_eq_self h]

/-- A byte other than NUL is kept, unless it is a newline. -/
theorem text_onChar
    {s : LinePrinter} (hs : 0 ∉ s.accum) {c : UInt8} (hc : c ≠ 0) :
    (s.onChar (some c)).text = s.text ++ [c].filter (· ≠ newline) ∧
      0 ∉ (s.onChar (some c)).accum := by
  have hempty : (0 : UInt8) ∉ ([] : List UInt8) := List.not_mem_nil
  have happend : 0 ∉ s.accum ++ [c] := by
    simpa [hs] using Ne.symm hc
  simp only [onChar]
  split_ifs with hnewline hlong
  · exact ⟨by simp [text_flush hs, hnewline], hempty⟩
  · constructor
    · rw [text_flush happend]
      simp [text, hnewline]
    · exact hempty
  · exact ⟨by simp [text, hnewline], happend⟩

theorem text_loop (chars : List (Option UInt8)) {s : LinePrinter}
    (hs : 0 ∉ s.accum) (hchars : some 0 ∉ chars) :
    (s.loop chars).text = s.text ++ chars.reduceOption.filter (· ≠ newline) ∧
      0 ∉ (s.loop chars).accum := by
  induction chars generalizing s with
  | nil => exact ⟨by simp [loop], hs⟩
  | cons c chars ih =>
      have hrest : some 0 ∉ chars := fun h => hchars (List.mem_cons_of_mem c h)
      cases c with
      | none =>
          rw [List.reduceOption_cons_of_none]
          exact ih hs hrest
      | some c =>
          have hc : c ≠ 0 := by
            rintro rfl
            exact hchars List.mem_cons_self
          obtain ⟨htext, haccum⟩ := text_onChar hs hc
          obtain ⟨hloop, hkept⟩ := ih haccum hrest
          refine ⟨?_, hkept⟩
          rw [htext, List.append_assoc, ← List.filter_append] at hloop
          rw [List.reduceOption_cons_of_some]
          exact hloop

theorem flatten_finish {s : LinePrinter} (hs : 0 ∉ s.accum) :
    s.finish.printed.flatten = s.text := by
  rw [finish]
  split_ifs with hpending
  · simp [text, flush, cStr_eq_self hs]
  · have hempty : s.accum = [] := List.length_eq_zero_iff.mp (by omega)
    simp [text, hempty]

/-! ## How many lines are printed -/

/-- Part of a line, from the beginning of the line on. -/
theorem loop_line
    (line : List (Option UInt8)) (hline : some newline ∉ line)
    (s : LinePrinter) {k : ℕ} (haccum : s.accum.length = k % maxLineLength) :
    (s.loop line).accum.length =
        (k + line.reduceOption.length) % maxLineLength ∧
      (s.loop line).printed.length + k / maxLineLength =
        s.printed.length + (k + line.reduceOption.length) / maxLineLength := by
  induction line generalizing s k with
  | nil => exact ⟨by simpa [loop] using haccum, by simp [loop]⟩
  | cons c line ih =>
      have hrest : some newline ∉ line :=
        fun h => hline (List.mem_cons_of_mem c h)
      cases c with
      | none =>
          rw [List.reduceOption_cons_of_none]
          exact ih hrest s haccum
      | some c =>
          have hc : c ≠ newline := by
            rintro rfl
            exact hline List.mem_cons_self
          have hcount : k + (List.reduceOption (some c :: line)).length =
              k + 1 + line.reduceOption.length := by
            rw [List.reduceOption_cons_of_some, List.length_cons]
            omega
          have hstep : (s.onChar (some c)).accum.length =
                (k + 1) % maxLineLength ∧
              (s.onChar (some c)).printed.length + k / maxLineLength =
                s.printed.length + (k + 1) / maxLineLength := by
            simp only [onChar, if_neg hc]
            split_ifs with hlong
            · simp only [List.length_append, List.length_singleton,
                maxLineLength, flush, List.length_nil] at haccum hlong ⊢
              omega
            · simp only [List.length_append, List.length_singleton,
                maxLineLength] at haccum hlong ⊢
              omega
          obtain ⟨haccum', hprinted⟩ := hstep
          obtain ⟨hlength, hlines⟩ := ih hrest (s.onChar (some c)) haccum'
          rw [hcount]
          refine ⟨hlength, ?_⟩
          have hloop : s.loop (some c :: line) =
            (s.onChar (some c)).loop line := rfl
          rw [hloop]
          omega

end LinePrinter

namespace InputLine

variable {chars : List (Option UInt8)} (l : InputLine chars)

theorem accum_before : (LinePrinter.start.loop l.before).accum = [] := by
  rcases l.starts with h | ⟨earlier, h⟩
  · rw [h]
    rfl
  · rw [h, LinePrinter.loop_append]
    rfl

/-- A line is printed as the full lines in it and a last one, which may be
empty. -/
theorem printedLines_eq : l.printedLines = l.length / maxLineLength + 1 := by
  have haccum : (LinePrinter.start.loop l.before).accum.length =
      0 % maxLineLength := by
    rw [l.accum_before]
    rfl
  obtain ⟨_, hprinted⟩ := LinePrinter.loop_line l.line l.unbroken _ haccum
  have hflush : ∀ s : LinePrinter,
      (s.loop [some newline]).printed.length = s.printed.length + 1 := by
    intro s
    simp [LinePrinter.loop, LinePrinter.onChar, LinePrinter.flush]
  rw [printedLines, LinePrinter.loop_append, LinePrinter.loop_append, hflush,
    length]
  rw [Nat.zero_div, Nat.zero_add, Nat.add_zero] at hprinted
  rw [hprinted, Nat.add_assoc, Nat.add_sub_cancel_left]

/-- The last line that is printed is not empty, or it is the only one. -/
theorem printedLines_eq_ceil_iff :
    l.printedLines =
        max 1 ((l.length + (maxLineLength - 1)) / maxLineLength) ↔
      l.length = 0 ∨ ¬maxLineLength ∣ l.length := by
  rw [printedLines_eq, Nat.dvd_iff_mod_eq_zero, maxLineLength]
  omega

end InputLine

/-! ## When the console prints the text -/

/-- The texts depend on the bytes only. -/
theorem runConsole_polls
    {chars chars' : List (Option UInt8)}
    (h : chars'.reduceOption = chars.reduceOption) :
    runConsole chars' = runConsole chars := by
  rw [runConsole, runConsole, ← LinePrinter.loop_reduceOption _ chars', h,
    LinePrinter.loop_reduceOption]

theorem runConsole_short (chars : List (Option UInt8)) :
    ∀ text ∈ runConsole chars, text.length ≤ maxLineLength := by
  have hloop := LinePrinter.loop_preserves LinePrinter.WithinLimit
    (fun _ c hs => LinePrinter.withinLimit_onChar hs c) chars
    LinePrinter.withinLimit_start
  exact (LinePrinter.withinLimit_finish hloop).printed

theorem runConsole_nulFree (chars : List (Option UInt8)) :
    0 ∉ (runConsole chars).flatten := by
  have hstart : LinePrinter.start.NulFree := by
    intro text htext
    cases htext
  have hloop := LinePrinter.loop_preserves LinePrinter.NulFree
    (fun _ c hs => LinePrinter.nulFree_onChar hs c) chars hstart
  have hfree := LinePrinter.nulFree_finish hloop
  intro h
  obtain ⟨text, htext, h0⟩ := List.mem_flatten.mp h
  exact hfree text htext h0

theorem runConsole_text
    {chars : List (Option UInt8)} (h : some 0 ∉ chars) :
    (runConsole chars).flatten =
      chars.reduceOption.filter (· ≠ newline) := by
  have hstart : 0 ∉ LinePrinter.start.accum := List.not_mem_nil
  obtain ⟨htext, haccum⟩ := LinePrinter.text_loop chars hstart h
  rw [runConsole, LinePrinter.flatten_finish haccum, htext]
  rfl

/-- The text is printed exactly if it has no NUL, and no line of it is as long as
some full printed lines. -/
theorem printsText_iff (chars : List (Option UInt8)) :
    PrintsText chars ↔ some 0 ∉ chars ∧
      ∀ l : InputLine chars, l.length = 0 ∨ ¬maxLineLength ∣ l.length := by
  constructor
  · intro h
    constructor
    · intro h0
      apply runConsole_nulFree chars
      rw [h.text]
      apply List.mem_filter.mpr
      exact ⟨List.reduceOption_mem_iff.mpr h0, by decide⟩
    · intro l
      exact l.printedLines_eq_ceil_iff.mp (h.lines l)
  · rintro ⟨h0, hlines⟩
    constructor
    · intro chars' h
      exact runConsole_polls h
    · exact runConsole_short chars
    · exact runConsole_text h0
    · intro l
      exact l.printedLines_eq_ceil_iff.mpr (hlines l)

/-- The text `a`, NUL, `b`. -/
def nulText : List (Option UInt8) := [some 97, some 0, some 98, some newline]

/-- A line of `k` equal bytes. -/
def equalBytes (k : ℕ) : List (Option UInt8) :=
  List.replicate k (some 120) ++ [some newline]

def equalBytesLine (k : ℕ) : InputLine (equalBytes k) where
  before := []
  line := List.replicate k (some 120)
  after := []
  input := rfl
  starts := Or.inl rfl
  unbroken := by
    intro h
    exact absurd (List.eq_of_mem_replicate h) (by decide)

theorem length_equalBytesLine (k : ℕ) : (equalBytesLine k).length = k := by
  have hbyte : id (some (120 : UInt8)) = some 120 := rfl
  change (List.filterMap id (List.replicate k (some (120 : UInt8)))).length = k
  rw [List.filterMap_replicate_of_some hbyte, List.length_replicate]

/-- The byte after the NUL is lost, and an empty line follows the full one. -/
theorem not_printsText :
    ¬PrintsText nulText ∧ ¬PrintsText (equalBytes maxLineLength) := by
  constructor
  · intro h
    exact absurd h.text (by decide)
  · intro h
    have hlines := (equalBytesLine _).printedLines_eq_ceil_iff.mp (h.lines _)
    rw [length_equalBytesLine] at hlines
    rcases hlines with hzero | hdvd
    · cases hzero
    · exact hdvd (Nat.dvd_refl maxLineLength)

end Bmboot
