import WasmText.Proofs.Lexer.Legible
import WasmText.Proofs.Lexer.Reads

/-!
# What a terminal shows

A diagnostic is written as lines: one with its message, and two more where it has a source line that
is not empty. A header that is to be written once is a line before the first of them.
-/

namespace WasmText

namespace Terminal

/-- A text in colour is on one line. -/
theorem oneLine_inColor (colored : Bool) {color text : String} (color_line : OneLine color)
    (line : OneLine text) : OneLine (inColor colored color text) := by
  unfold inColor
  split
  · exact OneLine.append_iff.mpr ⟨OneLine.append_iff.mpr ⟨color_line, line⟩, by decide⟩
  · exact line

/-- The line below a source line. -/
def markerLine (colored : Bool) (location : Location) (shown : SourceLine) : String :=
  "".pushn ' ' (markerIndent location shown) ++
    inColor colored markerColor (marker (markerWidth location shown))

/-- The source line with the marker below it, or nothing for an empty one. -/
def shownLines (colored : Bool) (location : Location) (shown : SourceLine) : List String :=
  if shown.text.isEmpty then [] else [shown.text, markerLine colored location shown]

/-- The line with the location and the message. -/
def messageLine (colored : Bool) (diagnostic : Diagnostic) : String :=
  inColor colored boldText (diagnostic.location.display ++ ":") ++ " " ++
    inColor colored errorColor "error" ++ ": " ++ diagnostic.message

/-- The lines of a diagnostic: one, or three where it has a source line that is not empty. -/
def lines (colored : Bool) (diagnostic : Diagnostic) : List String :=
  messageLine colored diagnostic ::
    diagnostic.sourceLine.elim [] (shownLines colored diagnostic.location)

theorem oneLine_markerLine (colored : Bool) (location : Location) (shown : SourceLine) :
    OneLine (markerLine colored location shown) := by
  refine OneLine.append_iff.mpr ⟨OneLine.pushn (by decide) (by decide) _, ?_⟩
  exact oneLine_inColor colored (by decide) (OneLine.pushn (by decide) (by decide) _)

theorem lined_sourceText (colored : Bool) (location : Location) {shown : SourceLine}
    (line : OneLine shown.text) :
    Lined (sourceText colored location shown) (shownLines colored location shown) := by
  unfold sourceText shownLines
  split
  · exact .nil
  · have below := Lined.singleton (oneLine_markerLine colored location shown)
    have both := (Lined.singleton line).append below
    rwa [markerLine, ← String.append_assoc, ← String.append_assoc] at both

variable {filename : String} {width : Nat} {diagnostic : Diagnostic} {terminal : Terminal}

theorem lined_headline (colored : Bool) (legible : diagnostic.Legible filename width)
    (filename_line : OneLine filename) :
    Lined (headline colored diagnostic) [messageLine colored diagnostic] := by
  have located : OneLine (diagnostic.location.display ++ ":") :=
    OneLine.append_iff.mpr
      ⟨Location.oneLine_display (legible.filename_eq ▸ filename_line), by decide⟩
  refine Lined.singleton ?_
  simp only [OneLine.append_iff]
  exact ⟨⟨⟨⟨oneLine_inColor colored (by decide) located, by decide⟩,
    oneLine_inColor colored (by decide) (by decide)⟩, by decide⟩, legible.message⟩

/-- What is written for a legible diagnostic, but for a header. -/
theorem lined_diagnostic (colored : Bool) (legible : diagnostic.Legible filename width)
    (filename_line : OneLine filename) :
    Lined (headline colored diagnostic ++
      diagnostic.sourceLine.elim "" (sourceText colored diagnostic.location))
      (lines colored diagnostic) := by
  refine (lined_headline colored legible filename_line).append ?_
  cases found : diagnostic.sourceLine with
  | none => exact .nil
  | some shown =>
      exact lined_sourceText colored diagnostic.location (legible.sourceLine shown found).1

/-- The lines before the next diagnostic. -/
def headerLines (terminal : Terminal) : List String :=
  if terminal.style.headerMode = .once ∧ terminal.headerPending = true then
    [terminal.style.header ++ ":"]
  else
    []

theorem lined_header (sparing : terminal.style.headerMode ≠ .always)
    (header : OneLine terminal.style.header) : Lined terminal.headerText terminal.headerLines := by
  unfold headerText headerLines
  cases mode : terminal.style.headerMode with
  | never => exact .nil
  | once =>
      cases terminal.headerPending with
      | false => exact .nil
      | true =>
          have line : OneLine (terminal.style.header ++ ":") :=
            OneLine.append_iff.mpr ⟨header, by decide⟩
          have ended : terminal.style.header ++ ":\n" = terminal.style.header ++ ":" ++ "\n" := by
            rw [String.append_assoc]
            rfl
          rw [if_pos rfl, if_pos ⟨rfl, rfl⟩, ended]
          exact .singleton line
  | always => exact absurd mode sparing

theorem lined_text (sparing : terminal.style.headerMode ≠ .always)
    (header : OneLine terminal.style.header) (legible : diagnostic.Legible filename width)
    (filename_line : OneLine filename) :
    Lined (terminal.text diagnostic) (terminal.headerLines ++ lines terminal.colored diagnostic) := by
  have both := (lined_header sparing header).append
    (lined_diagnostic terminal.colored legible filename_line)
  rwa [← String.append_assoc] at both

/-- The lines of diagnostics one after the other, with the header before the first of them. -/
def allLines (terminal : Terminal) (diagnostics : List Diagnostic) : List String :=
  (if diagnostics = [] then [] else terminal.headerLines) ++
    diagnostics.flatMap (lines terminal.colored)

theorem allLines_cons (diagnostics : List Diagnostic) :
    terminal.allLines (diagnostic :: diagnostics) =
      terminal.headerLines ++ lines terminal.colored diagnostic ++
        (terminal.write diagnostic).2.allLines diagnostics := by
  have no_header : (terminal.write diagnostic).2.headerLines = [] :=
    if_neg fun due => Bool.noConfusion due.2
  rw [allLines, if_neg (List.cons_ne_nil _ _), List.flatMap_cons, allLines, no_header, ite_self,
    List.nil_append, ← List.append_assoc]
  rfl

theorem lined_writeAll (sparing : terminal.style.headerMode ≠ .always)
    (header : OneLine terminal.style.header) (filename_line : OneLine filename)
    {diagnostics : Array Diagnostic}
    (legible : ∀ diagnostic ∈ diagnostics.toList, diagnostic.Legible filename width) :
    Lined (terminal.writeAll diagnostics).1 (terminal.allLines diagnostics.toList) ∧
      (terminal.writeAll diagnostics).2.errorCount = terminal.errorCount + diagnostics.size := by
  rw [writeAll, ← Array.foldl_toList, ← Array.length_toList]
  generalize diagnostics.toList = diagnostics at legible ⊢
  suffices written : ∀ text earlier, Lined text earlier →
      Lined (diagnostics.foldl (fun state diagnostic =>
        (state.1 ++ (state.2.write diagnostic).1, (state.2.write diagnostic).2))
        (text, terminal)).1 (earlier ++ terminal.allLines diagnostics) ∧
      (diagnostics.foldl (fun state diagnostic =>
        (state.1 ++ (state.2.write diagnostic).1, (state.2.write diagnostic).2))
        (text, terminal)).2.errorCount = terminal.errorCount + diagnostics.length from
    written "" [] .nil
  induction diagnostics generalizing terminal with
  | nil =>
      intro text earlier lined
      rw [allLines, if_pos rfl, List.flatMap_nil, List.append_nil, List.append_nil]
      exact ⟨lined, rfl⟩
  | cons diagnostic diagnostics induction =>
      intro text earlier lined
      obtain ⟨first, further⟩ := List.forall_mem_cons.mp legible
      have written := lined.append (lined_text sparing header first filename_line)
      have after := @induction (terminal.write diagnostic).2 sparing header further _ _ written
      rw [allLines_cons, ← List.append_assoc, List.length_cons, Nat.add_comm _ 1, ← Nat.add_assoc]
      exact after

end Terminal

end WasmText
