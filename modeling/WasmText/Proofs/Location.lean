import WasmText.Ascii
import WasmText.Location

/-!
# Where bytes are

The location of a stretch of bytes follows from the bytes before it: newlines among them count
lines, and the bytes behind the last newline count columns.
-/

namespace WasmText

namespace Location

/-- The number of the line that the bytes lead to. -/
def lineAfter (passed : List UInt8) : Nat :=
  passed.count Ascii.newline + 1

/-- The part of the bytes that is on the line they lead to. -/
def onLine (passed : List UInt8) : List UInt8 :=
  (passed.reverse.takeWhile (· != Ascii.newline)).reverse

/-- The offset just after the last newline among the bytes, or zero. -/
def lineStartAfter (passed : List UInt8) : Nat :=
  passed.length - (onLine passed).length

/-- The location of a stretch of bytes behind others. -/
def ofSpan (filename : String) (passed span : List UInt8) : Location where
  filename := filename
  line := lineAfter passed
  firstColumn := (onLine passed).length + 1
  lastColumn := (onLine passed).length + span.length + 1

variable {passed span : List UInt8}

theorem onLine_append (on_line : Ascii.newline ∉ span) :
    onLine (passed ++ span) = onLine passed ++ span := by
  have none_there : ∀ byte ∈ span.reverse, (byte != Ascii.newline) = true := by
    intro byte present
    rw [List.mem_reverse] at present
    exact bne_iff_ne.mpr fun same => on_line (same ▸ present)
  rw [onLine, List.reverse_append, List.takeWhile_append_of_pos none_there, List.reverse_append,
    List.reverse_reverse, onLine]

theorem onLine_newline (passed : List UInt8) : onLine (passed ++ [Ascii.newline]) = [] := by
  simp [onLine]

/-- A line starts at the front of the bytes or just after a newline, and there is none on it. -/
theorem line_cases (passed : List UInt8) :
    Ascii.newline ∉ onLine passed ∧
      (passed = onLine passed ∨ ∃ lines, passed = lines ++ [Ascii.newline] ++ onLine passed) := by
  have rejected := List.head?_dropWhile_not (· != Ascii.newline) passed.reverse
  have whole :
      passed = (passed.reverse.dropWhile (· != Ascii.newline)).reverse ++ onLine passed := by
    rw [onLine, ← List.reverse_append, List.takeWhile_append_dropWhile, List.reverse_reverse]
  constructor
  · intro present
    rw [onLine, List.mem_reverse] at present
    exact absurd (List.all_eq_true.mp List.all_takeWhile _ present) (by decide)
  cases here : passed.reverse.dropWhile (· != Ascii.newline) with
  | nil =>
      rw [here] at whole
      exact .inl whole
  | cons byte rest =>
      rw [here] at whole rejected
      have newline : byte = Ascii.newline := by simpa using rejected
      rw [newline, List.reverse_cons] at whole
      exact .inr ⟨_, whole⟩

/-- What the bytes have on the line that they lead to stands behind the start of it. -/
theorem exists_before_line (passed : List UInt8) :
    ∃ before, passed = before ++ onLine passed ∧ onLine before = [] ∧
      lineAfter passed = lineAfter before ∧ lineStartAfter passed = before.length := by
  obtain ⟨on_line, starts⟩ := line_cases passed
  have ends {before : List UInt8} (whole : passed = before ++ onLine passed) :
      lineAfter passed = lineAfter before ∧ lineStartAfter passed = before.length := by
    have count_eq := congrArg (List.count Ascii.newline) whole
    have length_eq := congrArg List.length whole
    rw [List.count_append, List.count_eq_zero_of_not_mem on_line] at count_eq
    rw [List.length_append] at length_eq
    exact ⟨congrArg (· + 1) count_eq, by rw [lineStartAfter]; omega⟩
  rcases starts with whole | ⟨lines, whole⟩
  · exact ⟨[], whole, rfl, ends whole⟩
  · exact ⟨lines ++ [Ascii.newline], whole, onLine_newline lines, ends whole⟩

theorem length_onLine_le (passed : List UInt8) : (onLine passed).length ≤ passed.length := by
  rcases (line_cases passed).2 with whole | ⟨lines, whole⟩
  · exact Nat.le_of_eq (congrArg List.length whole.symm)
  · have length_eq := congrArg List.length whole
    rw [List.length_append] at length_eq
    omega

theorem lineStartAfter_append (on_line : Ascii.newline ∉ span) :
    lineStartAfter (passed ++ span) = lineStartAfter passed := by
  rw [lineStartAfter, onLine_append on_line, List.length_append, List.length_append,
    Nat.add_sub_add_right, lineStartAfter]

theorem lineStartAfter_newline (passed : List UInt8) :
    lineStartAfter (passed ++ [Ascii.newline]) = passed.length + 1 := by
  rw [lineStartAfter, onLine_newline, List.length_append]
  rfl

theorem lineAfter_append (on_line : Ascii.newline ∉ span) :
    lineAfter (passed ++ span) = lineAfter passed := by
  rw [lineAfter, List.count_append, List.count_eq_zero_of_not_mem on_line]
  rfl

theorem lineAfter_newline (passed : List UInt8) :
    lineAfter (passed ++ [Ascii.newline]) = lineAfter passed + 1 := by
  rw [lineAfter, List.count_append]
  rfl

end Location

end WasmText
