import Mathlib.Data.Prod.Lex
import Mathlib.Data.Set.BooleanAlgebra
import Mathlib.Order.CompletePartialOrder
import WasmText.Proofs.Lexer.Bare
import WasmText.Proofs.Lexer.Lines
import WasmText.Proofs.Lexer.Reads

/-!
# The order of errors

Errors are reported once each and in the order of the input. Every error begins where its turn does
and ends no further than the turn gets, and the next turn begins there. A turn without a byte to
report is the last one, so no two errors begin at the same place.
-/

namespace WasmText

namespace Location

/-- The line and the column where a location begins. -/
def begins (location : Location) : ℕ ×ₗ ℕ :=
  toLex (location.line, location.firstColumn)

/-- The line and the column where a location ends. -/
def ends (location : Location) : ℕ ×ₗ ℕ :=
  toLex (location.line, location.lastColumn)

/-- The columns that a location covers, each with its line. -/
def covered (location : Location) : Set (ℕ × ℕ) :=
  {place | place.1 = location.line ∧
    location.firstColumn ≤ place.2 ∧ place.2 < location.lastColumn}

theorem disjoint_covered {first second : Location} (apart : first.ends ≤ second.begins) :
    Disjoint first.covered second.covered := by
  refine Set.disjoint_left.mpr fun place inside again => ?_
  obtain ⟨first_line, -, before⟩ := inside
  obtain ⟨second_line, after, -⟩ := again
  rcases Prod.Lex.toLex_le_toLex.mp apart with lines | ⟨-, columns⟩
  · exact absurd (first_line.symm.trans second_line) (Nat.ne_of_lt lines)
  · exact absurd (Nat.lt_of_lt_of_le before columns) (Nat.not_lt_of_le after)

/-! ### Places -/

/-- The line and the column that bytes lead to. -/
def pointAfter (passed : List UInt8) : ℕ ×ₗ ℕ :=
  toLex (lineAfter passed, (onLine passed).length + 1)

variable {passed span : List UInt8}

theorem pointAfter_lt_concat (passed : List UInt8) (byte : UInt8) :
    pointAfter passed < pointAfter (passed ++ [byte]) := by
  refine Prod.Lex.toLex_lt_toLex.mpr ?_
  by_cases newline : byte = Ascii.newline
  · rw [newline, lineAfter_newline]
    exact .inl (Nat.lt_succ_self _)
  · have on_line : Ascii.newline ∉ [byte] :=
      fun present => newline (List.mem_singleton.mp present).symm
    rw [lineAfter_append on_line, onLine_append on_line, List.length_append]
    exact .inr ⟨rfl, Nat.lt_succ_self _⟩

theorem pointAfter_le_append (passed span : List UInt8) :
    pointAfter passed ≤ pointAfter (passed ++ span) := by
  induction span generalizing passed with
  | nil => rw [List.append_nil]
  | cons byte rest induction =>
      rw [List.append_cons]
      exact (pointAfter_lt_concat passed byte).le.trans (induction _)

/-- Bytes lead further on. -/
theorem pointAfter_lt_append (passed : List UInt8) (nonempty : span ≠ []) :
    pointAfter passed < pointAfter (passed ++ span) := by
  obtain ⟨byte, rest, rfl⟩ := List.exists_cons_of_ne_nil nonempty
  rw [List.append_cons]
  exact (pointAfter_lt_concat passed byte).trans_le (pointAfter_le_append _ rest)

theorem begins_ofSpan (filename : String) : (ofSpan filename passed span).begins = pointAfter passed :=
  rfl

theorem ends_ofSpan (filename : String) (on_line : Ascii.newline ∉ span) :
    (ofSpan filename passed span).ends = pointAfter (passed ++ span) := by
  rw [pointAfter, lineAfter_append on_line, onLine_append on_line, List.length_append]
  rfl

/-- A newline ends before the line that it leads to. -/
theorem ends_ofSpan_newline_le (filename : String) :
    (ofSpan filename passed [Ascii.newline]).ends ≤ pointAfter (passed ++ [Ascii.newline]) := by
  refine Prod.Lex.toLex_le_toLex.mpr (.inl ?_)
  rw [lineAfter_newline]
  exact Nat.lt_succ_self _

/-- One location begins before another, and ends no later than the other begins. -/
structure Precedes (first second : Location) : Prop where
  /-- They do not begin at the same place. -/
  begins_lt : first.begins < second.begins
  /-- They have no place in common. -/
  ends_le : first.ends ≤ second.begins

end Location

namespace Lexer

open Location (pointAfter)

variable {lexer after : Lexer Cursor} {lexeme : Lexeme} {errors : List LexError}
  {first : ℕ ×ₗ ℕ} {found : List Diagnostic}

/-- The errors that a lexer has found from some place on. -/
structure Faulted (first : ℕ ×ₗ ℕ) (lexer : Lexer Cursor) (found : List Diagnostic) : Prop where
  /-- The place lies behind. -/
  first_le : first ≤ pointAfter lexer.tape.passed
  /-- Each precedes those that were found later. -/
  ordered : found.Pairwise fun earlier later => earlier.location.Precedes later.location
  /-- None begins before that place. -/
  le_begins : ∀ diagnostic ∈ found, first ≤ diagnostic.location.begins
  /-- None ends behind the cursor. -/
  ends_le : ∀ diagnostic ∈ found, diagnostic.location.ends ≤ pointAfter lexer.tape.passed
  /-- As long as others may be found, none begins at the cursor. -/
  begins_lt : lexer.finished = false →
    ∀ diagnostic ∈ found, diagnostic.location.begins < pointAfter lexer.tape.passed

theorem faulted_nil (lexer : Lexer Cursor) : lexer.Faulted (pointAfter lexer.tape.passed) [] where
  first_le := le_refl _
  ordered := .nil
  le_begins := nofun
  ends_le := nofun
  begins_lt := fun _ => nofun

/-- Only what the lexer has passed and whether it goes on matter. -/
theorem Faulted.of_same {other : Lexer Cursor} (faulted : lexer.Faulted first found)
    (passed_eq : other.tape.passed = lexer.tape.passed)
    (finished_eq : other.finished = lexer.finished) : other.Faulted first found := by
  obtain ⟨first_le, ordered, le_begins, ends_le, begins_lt⟩ := faulted
  rw [← passed_eq] at first_le ends_le begins_lt
  rw [← finished_eq] at begins_lt
  exact ⟨first_le, ordered, le_begins, ends_le, begins_lt⟩

/-- What a turn finds in error. -/
def fault (lexer : Lexer Cursor) (error : LexError) : Diagnostic :=
  lexer.begun.diagnostic error lexer.tape.offset (lexer.tape.offset + lexer.piece.taken.length)

/-- An error begins where its turn does and ends no further than the turn gets. -/
theorem Tidy.fault (tidy : lexer.Tidy) (small : lexer.tape.bytes.size < maximalColumn)
    {error : LexError} (reported : lexer.piece.error = some error) :
    (lexer.fault error).location.begins = pointAfter lexer.tape.passed ∧
      (lexer.fault error).location.ends ≤ pointAfter (lexer.take lexer.piece).tape.passed := by
  obtain ⟨rest, ahead_eq, fits⟩ := lexer.exists_rest
  have enough : lexer.tape.passed.length + lexer.piece.taken.length < maximalColumn := by
    have length_eq := lexer.tape.length_passed_add_ahead
    rw [ahead_eq, List.length_append] at length_eq
    omega
  have located := location_eq_ofSpan tidy.line_eq tidy.lineOffset_eq enough
  rw [Cursor.length_passed tidy.offset_le] at located
  have location_eq : (lexer.fault error).location =
      .ofSpan lexer.filename lexer.tape.passed lexer.piece.taken := located
  rw [location_eq, passed_take ahead_eq]
  refine ⟨Location.begins_ofSpan _, ?_⟩
  rcases fits.error_on_line reported with on_line | ⟨-, taken_eq⟩
  · exact (Location.ends_ofSpan _ on_line).le
  · rw [taken_eq]
    exact Location.ends_ofSpan_newline_le _

/-- A turn leads further on, unless it ends the input. -/
theorem pointAfter_take (lexer : Lexer Cursor) :
    pointAfter lexer.tape.passed ≤ pointAfter (lexer.take lexer.piece).tape.passed ∧
      (lexer.piece.ends = false →
        pointAfter lexer.tape.passed < pointAfter (lexer.take lexer.piece).tape.passed) := by
  obtain ⟨rest, ahead_eq, fits⟩ := lexer.exists_rest
  rw [passed_take ahead_eq]
  exact ⟨Location.pointAfter_le_append _ _,
    fun goes_on => Location.pointAfter_lt_append _ (fits.nonempty goes_on)⟩

/-- An error after which others may be found does not end the input. -/
theorem goes_on_of_fault {error : LexError} (reported : lexer.piece.error = some error)
    (going : (lexer.take lexer.piece).finished = false) : lexer.piece.ends = false := by
  obtain ⟨rest, -, fits⟩ := lexer.exists_rest
  rw [← Bool.not_eq_true]
  intro ends
  rcases fits.cases_of_ends ends with ⟨unclosed_error, same, unclosed⟩ | ⟨silent, -⟩
  · change (lexer.piece.error.elim lexer.finished fun error => lexer.finished || error.isFatal) =
      false at going
    rw [same, Option.elim_some, unclosed.isFatal, Bool.or_true] at going
    cases going
  · cases silent.symm.trans reported

/-- A turn adds at most one error, behind those that are there. -/
theorem Faulted.take (faulted : lexer.Faulted first found) (tidy : lexer.Tidy)
    (small : lexer.tape.bytes.size < maximalColumn) (running : lexer.finished = false) :
    (lexer.take lexer.piece).Faulted first
      (found ++ lexer.piece.error.toList.map lexer.fault) := by
  obtain ⟨le_place, lt_place⟩ := lexer.pointAfter_take
  have begins_lt := faulted.begins_lt running
  have ends_le (diagnostic) (present : diagnostic ∈ found) :=
    (faulted.ends_le diagnostic present).trans le_place
  cases reported : lexer.piece.error with
  | none =>
      rw [Option.toList_none, List.map_nil, List.append_nil]
      exact ⟨faulted.first_le.trans le_place, faulted.ordered, faulted.le_begins, ends_le,
        fun _ diagnostic present => (begins_lt diagnostic present).trans_le le_place⟩
  | some error =>
      obtain ⟨begins_eq, fault_ends_le⟩ := tidy.fault small reported
      rw [Option.toList_some, List.map_singleton]
      refine ⟨faulted.first_le.trans le_place, ?_, ?_, ?_, fun going => ?_⟩
      · refine List.pairwise_append.mpr
          ⟨faulted.ordered, List.pairwise_singleton _ _, fun earlier present => ?_⟩
        refine List.forall_mem_singleton.mpr ⟨?_, ?_⟩
        · rw [begins_eq]
          exact begins_lt earlier present
        · rw [begins_eq]
          exact faulted.ends_le earlier present
      · refine List.forall_mem_append.mpr ⟨faulted.le_begins, List.forall_mem_singleton.mpr ?_⟩
        rw [begins_eq]
        exact faulted.first_le
      · exact List.forall_mem_append.mpr ⟨ends_le, List.forall_mem_singleton.mpr fault_ends_le⟩
      · refine List.forall_mem_append.mpr
          ⟨fun diagnostic present => (begins_lt diagnostic present).trans_le le_place,
            List.forall_mem_singleton.mpr ?_⟩
        rw [begins_eq]
        exact lt_place (goes_on_of_fault reported going)

/-- A call adds its errors behind those that are there. -/
theorem Finds.faulted (finds : Finds lexer errors lexeme after)
    (faulted : lexer.Faulted first found) (tidy : lexer.Tidy)
    (small : lexer.tape.bytes.size < maximalColumn) :
    ∃ further, after.reported.toList = lexer.reported.toList ++ further ∧
      after.Faulted first (found ++ further) := by
  induction finds generalizing found with
  | finished =>
      refine ⟨[], (List.append_nil _).symm, ?_⟩
      rw [List.append_nil]
      exact faulted.of_same rfl rfl
  | completes running => exact ⟨_, reported_take _, faulted.take tidy small running⟩
  | @goesOn lexer _ _ _ running _ _ induction =>
      obtain ⟨further, reported_eq, further_faulted⟩ :=
        induction (faulted.take tidy small running) tidy.take small
      rw [reported_take, List.append_assoc] at reported_eq
      rw [List.append_assoc] at further_faulted
      exact ⟨_, reported_eq, further_faulted⟩

/-- The token of a call ends where the call has got. -/
theorem Finds.token_ends (finds : Finds lexer errors lexeme after) (tidy : lexer.Tidy)
    (small : lexer.tape.bytes.size < maximalColumn) :
    (handOut lexeme after).1.token.location.ends = pointAfter after.tape.passed := by
  have on_line := (finds.token tidy).1
  have after_small : after.tape.bytes.size < maximalColumn := finds.bytes_eq.1 ▸ small
  have located := (finds.tidy tidy).token_location on_line after_small
  rw [(finds.tidy tidy).passed_eq]
  exact (congrArg Location.ends located).trans (Location.ends_ofSpan _ on_line)

/-- The errors of the first so many calls. -/
def errorsWithin {τ : Type} [Tape τ] (calls : Nat) (lexer : Lexer τ) : List Diagnostic :=
  errorsOf ((List.range calls).map fun call => lexer.reading call)

theorem errorsWithin_succ {τ : Type} [Tape τ] (calls : Nat) (lexer : Lexer τ) :
    lexer.errorsWithin (calls + 1) =
      lexer.errorsWithin calls ++ (lexer.reading calls).diagnostics.toList := by
  rw [errorsWithin, List.range_succ, List.map_append, errorsOf, List.flatMap_append,
    List.map_singleton, List.flatMap_singleton]
  rfl

section Plain

variable {contents : Bytes} (filename : String) (lineWidth : Nat)
  (small : contents.size < maximalColumn)

include small

theorem size_after_lt (calls : Nat) :
    ((plain filename lineWidth contents).after calls).tape.bytes.size < maximalColumn := by
  rw [(after_plain filename lineWidth contents calls).2.1]
  exact small

theorem faulted_after (calls : Nat) :
    ((plain filename lineWidth contents).after calls).Faulted (pointAfter [])
      ((plain filename lineWidth contents).errorsWithin calls) := by
  induction calls with
  | zero => exact faulted_nil (plain filename lineWidth contents)
  | succ calls induction =>
      obtain ⟨tidy, -, -, silent⟩ := after_plain filename lineWidth contents calls
      obtain ⟨errors, lexeme, after, finds, next_eq⟩ := exists_finds tidy
      obtain ⟨further, reported_eq, faulted⟩ :=
        finds.faulted induction tidy (size_after_lt filename lineWidth small calls)
      rw [silent, Array.toList_empty, List.nil_append] at reported_eq
      rw [errorsWithin_succ, Lexer.after, reading, next_eq]
      change (handOut lexeme after).2.Faulted _ (_ ++ after.reported.toList)
      rw [reported_eq]
      exact faulted.of_same rfl rfl

/-- The errors of a call lie between what the calls before have passed and the end of its token. -/
theorem between_tokens (call : Nat) :
    ∀ diagnostic ∈ ((plain filename lineWidth contents).reading call).diagnostics,
      pointAfter ((plain filename lineWidth contents).after call).tape.passed ≤
          diagnostic.location.begins ∧
        diagnostic.location.ends ≤
          ((plain filename lineWidth contents).reading call).token.location.ends := by
  obtain ⟨tidy, -, -, silent⟩ := after_plain filename lineWidth contents call
  obtain ⟨errors, lexeme, after, finds, next_eq⟩ := exists_finds tidy
  have call_small := size_after_lt filename lineWidth small call
  obtain ⟨further, reported_eq, faulted⟩ := finds.faulted (faulted_nil _) tidy call_small
  rw [silent, Array.toList_empty, List.nil_append] at reported_eq
  rw [reading, next_eq, finds.token_ends tidy call_small]
  intro diagnostic present
  have present : diagnostic ∈ further := reported_eq ▸ Array.mem_toList_iff.mpr present
  exact ⟨faulted.le_begins diagnostic present, faulted.ends_le diagnostic present⟩

/-- A call ends its token where the next call begins. -/
theorem ends_reading (call : Nat) :
    ((plain filename lineWidth contents).reading call).token.location.ends =
      pointAfter ((plain filename lineWidth contents).after (call + 1)).tape.passed := by
  obtain ⟨tidy, -⟩ := after_plain filename lineWidth contents call
  obtain ⟨errors, lexeme, after, finds, next_eq⟩ := exists_finds tidy
  rw [reading, Lexer.after, next_eq,
    finds.token_ends tidy (size_after_lt filename lineWidth small call)]
  rfl

end Plain

/-- Errors arrive once each and in order. However many calls are made, as long as no refill fails,
each error begins before those that are reported after it and covers no column that they cover. The
errors of a call begin no earlier than the token of the call before ends, and end no later than its
own token. -/
theorem errors_in_order {contents : Bytes} {source : Source} (opens : source.Opens contents)
    (filename : String) (lineWidth size bound calls : Nat) (small : contents.size < maximalColumn)
    (flowing : ((opened filename lineWidth source size bound).after calls).tape.stalled = false) :
    let lexer := opened filename lineWidth source size bound
    (lexer.errorsWithin calls).Pairwise (fun earlier later =>
        earlier.location.begins < later.location.begins ∧
          Disjoint earlier.location.covered later.location.covered) ∧
      ∀ call < calls, ∀ diagnostic ∈ (lexer.reading call).diagnostics,
        (∀ previous, call = previous + 1 →
          (lexer.reading previous).token.location.ends ≤ diagnostic.location.begins) ∧
        diagnostic.location.ends ≤ (lexer.reading call).token.location.ends := by
  intro lexer
  have shows : lexer.tape.Shows contents :=
    (sound_opened opens filename lineWidth size bound).shows
  have reading_eq (call : Nat) (made : call < calls) :
      lexer.reading call = (plain filename lineWidth contents).reading call :=
    (reading_eq_plain opens filename lineWidth size bound call
      (flowing_of_le shows made flowing)).1.symm
  constructor
  · have errors_eq :
        lexer.errorsWithin calls = (plain filename lineWidth contents).errorsWithin calls :=
      congrArg errorsOf (List.map_congr_left fun call made =>
        reading_eq call (List.mem_range.mp made))
    rw [errors_eq]
    exact (faulted_after filename lineWidth small calls).ordered.imp fun precedes =>
      ⟨precedes.begins_lt, Location.disjoint_covered precedes.ends_le⟩
  · intro call made
    rw [reading_eq call made]
    intro diagnostic present
    obtain ⟨begins_le, ends_le⟩ := between_tokens filename lineWidth small call diagnostic present
    refine ⟨?_, ends_le⟩
    rintro previous rfl
    rw [reading_eq previous (Nat.lt_of_succ_lt made), ends_reading filename lineWidth small]
    exact begins_le

/-- A stray byte, a bad escape in a string and another stray byte, from a window of one byte. -/
theorem errors_in_order_badEscape :
    let lexer := opened "a.wast" 0 (.ofBytes ", \"\\q\" ;".toUTF8.data) 1 4096
    (lexer.errorsWithin 2).length = 3 ∧
      (lexer.errorsWithin 2).Pairwise (fun earlier later =>
        earlier.location.begins < later.location.begins ∧
          Disjoint earlier.location.covered later.location.covered) :=
  ⟨by decide +kernel,
    (errors_in_order (Source.opens_ofBytes _) "a.wast" 0 1 4096 2 (by decide +kernel)
      (by decide +kernel)).1⟩

end Lexer

end WasmText
