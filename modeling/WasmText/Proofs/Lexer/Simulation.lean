import WasmText.Proofs.Lexer.Turn

/-!
# Simulations

Scans are built from a few operations by choosing and by doing one after another. A relation between
scans over one tape and scans over another that holds of these operations, and outlasts choosing and
doing one after another, holds of every step of the scanner and of every call. Where it does not
hold of reports that quote what they are about, it still holds of the steps that make no such
report.
-/

namespace WasmText

/-- Whether the message of an error quotes the input or the system. -/
def LexError.quotes : LexError → Bool
  | unexpectedToken _ | badEscape _ | sourceRead _ => true
  | unexpectedChar | newlineInString | illegalCharInString | unexpectedEofInString
  | unterminatedBlockComment | bufferAllocation => false

namespace Scan

variable {σ τ : Type} [Tape σ] [Tape τ]

/-- Two lexers of which a scan reads the same beside their tapes. -/
structure InStep (lexer : Lexer σ) (other : Lexer τ) : Prop where
  /-- They are in the middle of the same. -/
  mode : lexer.mode = other.mode
  /-- They are inside as many block comments. -/
  nesting : lexer.nesting = other.nesting
  /-- The input is over for both or for none. -/
  finished : lexer.finished = other.finished

/-- A relation between scans over two tapes that holds of all that scans are built from, but for
reports that quote what they are about. -/
structure Traversal (Tracks : ∀ α : Type, Scan σ α → Scan τ α → Prop) : Prop where
  pure : ∀ {α : Type} (answer : α), Tracks α (pure answer) (pure answer)
  bind : ∀ {α β : Type} {scan : Scan σ α} {other : Scan τ α} {next : α → Scan σ β}
    {other_next : α → Scan τ β}, Tracks α scan other →
    (∀ answer, Tracks β (next answer) (other_next answer)) →
    Tracks β (scan >>= next) (other >>= other_next)
  beginToken : Tracks Unit (move Tape.beginToken) (move Tape.beginToken)
  mark : Tracks Unit (move Tape.mark) (move Tape.mark)
  peek : ∀ ahead, Tracks UInt8 (peek ahead) (peek ahead)
  isEndAt : ∀ ahead, Tracks Bool (isEndAt ahead) (isEndAt ahead)
  advance : ∀ count, Tracks Unit (advance count) (advance count)
  eatWhile : ∀ accepts, Tracks Unit (eatWhile accepts) (eatWhile accepts)
  skipUntil : ∀ wanted, Tracks (Option UInt8) (skipUntil wanted) (skipUntil wanted)
  tokenBytes : Tracks Bytes (view Tape.tokenBytes) (view Tape.tokenBytes)
  markedBytes : Tracks Bytes (view Tape.markedBytes) (view Tape.markedBytes)
  remaining : Tracks Nat (view Tape.remaining) (view Tape.remaining)
  /-- What follows may depend on the state in which it begins. -/
  get : ∀ {α : Type} {next : Lexer σ → Scan σ α} {other_next : Lexer τ → Scan τ α},
    (∀ lexer other, InStep lexer other → Tracks α (next lexer) (other_next other)) →
    Tracks α (get >>= next) (get >>= other_next)
  startLine : Tracks Unit startLine startLine
  nest : ∀ change, Tracks Unit (nest change) (nest change)
  enter : ∀ mode : Mode,
    Tracks Unit (modify fun lexer => { lexer with mode }) (modify fun lexer => { lexer with mode })
  reportPlain : ∀ error : LexError, error.quotes = false →
    Tracks Unit (report error) (report error)

/-- A relation between scans over two tapes that holds of all that scans are built from. -/
structure Simulation (Tracks : ∀ α : Type, Scan σ α → Scan τ α → Prop) : Prop
    extends Traversal Tracks where
  report : ∀ error, Tracks Unit (report error) (report error)
  reportPlain := fun error _ => report error

variable {Tracks : ∀ α : Type, Scan σ α → Scan τ α → Prop}

omit [Tape σ] [Tape τ] in
theorem either {α : Type} {condition : Prop} [Decidable condition] {yes no : Scan σ α}
    {other_yes other_no : Scan τ α} (if_yes : Tracks α yes other_yes)
    (if_no : Tracks α no other_no) :
    Tracks α (if condition then yes else no) (if condition then other_yes else other_no) := by
  split
  · exact if_yes
  · exact if_no

namespace Traversal

variable (sim : Traversal Tracks)

include sim

theorem eof : Tracks Lexeme eof eof :=
  sim.bind sim.beginToken fun _ => sim.pure _

/-! ### Normal mode -/

theorem single (kind : TokenKind) : Tracks Step (single kind) (single kind) :=
  sim.bind (sim.advance 1) fun _ => sim.pure _

theorem unexpectedChar : Tracks Step unexpectedChar unexpectedChar :=
  sim.bind (sim.advance 1) fun _ => sim.bind (sim.reportPlain _ rfl) fun _ => sim.pure _

theorem escapeLength : Tracks Nat escapeLength escapeLength := by
  refine sim.bind (sim.peek 1) fun first => either (sim.pure _) (either ?_ (sim.pure _))
  exact sim.bind (sim.peek 2) fun second => sim.pure _

theorem closeText : Tracks Step closeText closeText :=
  sim.bind (sim.advance 1) fun _ => sim.bind sim.tokenBytes fun _ => sim.pure _

theorem textWithin (escapes : Nat) : Tracks Step (textWithin escapes) (textWithin escapes) := by
  induction escapes with
  | zero => exact sim.pure _
  | succ escapes induction =>
      refine sim.bind (sim.eatWhile _) fun _ => sim.bind (sim.peek 0) fun byte => ?_
      refine either sim.closeText (either ?_ (sim.pure _))
      refine sim.bind sim.escapeLength fun length => either (sim.pure _) ?_
      exact sim.bind (sim.advance length) fun _ => induction

theorem text : Tracks Step text text :=
  sim.bind (sim.advance 1) fun _ => sim.bind sim.remaining fun _ => sim.textWithin _

/-! ### Bad texts -/

theorem lone : Tracks Step badTextEscape.lone badTextEscape.lone :=
  sim.bind (sim.advance 1) fun _ => sim.bind (sim.reportPlain _ rfl) fun _ => sim.pure _

theorem illegalChar : Tracks Step badText.illegalChar badText.illegalChar :=
  sim.bind (sim.advance 1) fun _ => sim.bind (sim.reportPlain _ rfl) fun _ => sim.pure _

/-! ### Comments -/

theorem lineComment : Tracks Step lineComment lineComment := by
  refine sim.bind (sim.skipUntil _) fun found => ?_
  cases found with
  | none => exact sim.bind sim.eof fun _ => sim.pure _
  | some byte => exact sim.bind (sim.advance 1) fun _ => sim.bind sim.startLine fun _ => sim.pure _

theorem blockComment : Tracks Step blockComment blockComment := by
  refine sim.bind (sim.skipUntil _) fun found => ?_
  cases found with
  | none => exact sim.bind (sim.reportPlain _ rfl) fun _ => sim.bind sim.eof fun _ => sim.pure _
  | some byte =>
      refine either ?_ (either ?_ ?_)
      · exact sim.bind (sim.advance 1) fun _ => sim.bind sim.startLine fun _ => sim.pure _
      · refine sim.bind (sim.peek 1) fun _ => either ?_ ?_
        · exact sim.bind (sim.advance 2) fun _ => sim.bind (sim.nest _) fun _ => sim.pure _
        · exact sim.bind (sim.advance 1) fun _ => sim.pure _
      · refine sim.bind (sim.peek 1) fun _ => either ?_ ?_
        · refine sim.bind (sim.advance 2) fun _ => sim.bind (sim.nest _) fun _ => ?_
          refine sim.get fun lexer other same => ?_
          rw [same.nesting]
          exact sim.pure _
        · exact sim.bind (sim.advance 1) fun _ => sim.pure _

/-! ### Turns -/

theorem beginStep : Tracks Unit beginStep beginStep := by
  refine sim.get fun lexer other same => ?_
  rw [same.mode]
  exact either (sim.bind sim.beginToken fun _ => sim.mark) sim.mark

end Traversal

namespace Simulation

variable (sim : Simulation Tracks)

include sim

theorem atom : Tracks Step atom atom := by
  refine sim.bind (sim.eatWhile _) fun _ => sim.bind sim.tokenBytes fun bytes => ?_
  split
  · exact sim.pure _
  · exact sim.bind (sim.report _) fun _ => sim.pure _

theorem normal : Tracks Step normal normal := by
  refine sim.bind (sim.peek 0) fun byte => ?_
  refine either ?_ (either ?_ (either ?_ (either ?_ (either ?_ (either ?_ (either ?_
    (either ?_ ?_)))))))
  · exact sim.bind (sim.isEndAt 0) fun _ => either (sim.pure _) sim.unexpectedChar
  · refine sim.bind (sim.peek 1) fun _ => either ?_ (sim.single _)
    exact sim.bind (sim.advance 2) fun _ => sim.bind (sim.nest _) fun _ => sim.pure _
  · exact sim.single _
  · refine sim.bind (sim.peek 1) fun _ => either ?_ sim.unexpectedChar
    exact sim.bind (sim.advance 2) fun _ => sim.pure _
  · exact sim.text
  · exact sim.bind (sim.eatWhile _) fun _ => sim.pure _
  · exact sim.bind (sim.advance 1) fun _ => sim.bind sim.startLine fun _ => sim.pure _
  · exact sim.atom
  · exact sim.unexpectedChar

theorem badTextEscape : Tracks Step badTextEscape badTextEscape := by
  refine sim.bind sim.escapeLength fun length => either ?_ ?_
  · refine sim.bind (sim.peek 1) fun _ => either sim.lone ?_
    refine sim.bind (sim.isEndAt 1) fun _ => either sim.lone ?_
    refine sim.bind (sim.advance 2) fun _ => sim.bind sim.markedBytes fun _ => ?_
    exact sim.bind (sim.report _) fun _ => sim.pure _
  · exact sim.bind (sim.advance length) fun _ => sim.pure _

theorem badText : Tracks Step badText badText := by
  refine sim.bind (sim.peek 0) fun byte => ?_
  refine either ?_ (either sim.closeText (either ?_ (either sim.badTextEscape
    (either ?_ sim.illegalChar))))
  · refine sim.bind (sim.isEndAt 0) fun _ => either ?_ sim.illegalChar
    exact sim.bind (sim.report _) fun _ => sim.bind sim.eof fun _ => sim.pure _
  · refine sim.bind (sim.advance 1) fun _ => sim.bind (sim.report _) fun _ => ?_
    exact sim.bind sim.startLine fun _ => sim.pure _
  · exact sim.bind (sim.eatWhile _) fun _ => sim.pure _

theorem step : Tracks Step step step := by
  refine sim.get fun lexer other same => ?_
  rw [same.mode]
  cases other.mode with
  | normal => exact sim.normal
  | badText => exact sim.badText
  | lineComment => exact sim.lineComment
  | blockComment => exact sim.blockComment

theorem turn : Tracks (Option Lexeme) turn turn :=
  sim.bind sim.beginStep fun _ => sim.bind sim.step fun _ => sim.bind (sim.enter _) fun _ =>
    sim.pure _

/-! ### Calls -/

/-- Whether a failure of the tape is found depends on how failures are taken. -/
theorem stopOnFailure (takeFailure : Tracks _ (ask Tape.takeFailure) (ask Tape.takeFailure)) :
    Tracks Bool stopOnFailure stopOnFailure := by
  refine sim.bind takeFailure fun failure => ?_
  split
  · exact sim.pure _
  · exact sim.bind (sim.report _) fun _ => sim.pure _

theorem lexemeWithin (takeFailure : Tracks _ (ask Tape.takeFailure) (ask Tape.takeFailure))
    (steps : Nat) : Tracks Lexeme (lexemeWithin steps) (lexemeWithin steps) := by
  induction steps with
  | zero => exact sim.eof
  | succ steps induction =>
      refine sim.get fun lexer other same => ?_
      rw [same.finished]
      refine either sim.eof (sim.bind sim.beginStep fun _ => sim.bind sim.step fun taken => ?_)
      refine sim.bind (sim.enter _) fun _ => sim.bind (sim.stopOnFailure takeFailure) fun _ => ?_
      refine either sim.eof ?_
      cases taken.lexeme with
      | none => exact induction
      | some lexeme => exact sim.pure _

theorem goOn (takeFailure : Tracks _ (ask Tape.takeFailure) (ask Tape.takeFailure)) (steps : Nat)
    (completed : Option Lexeme) :
    Tracks Lexeme (goOn steps completed) (goOn steps completed) := by
  refine sim.bind (sim.stopOnFailure takeFailure) fun _ => either sim.eof ?_
  cases completed with
  | none => exact sim.lexemeWithin takeFailure steps
  | some lexeme => exact sim.pure lexeme

theorem lexeme (takeFailure : Tracks _ (ask Tape.takeFailure) (ask Tape.takeFailure)) :
    Tracks Lexeme lexeme lexeme :=
  sim.bind sim.remaining fun _ => sim.lexemeWithin takeFailure _

end Simulation

end Scan

end WasmText
