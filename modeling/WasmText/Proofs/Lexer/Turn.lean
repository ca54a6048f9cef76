import WasmText.Lexer.Reading
import WasmText.Proofs.Lexer.Piece

/-!
# Turns

A turn of the scanner is one step with its beginning and its end. Over a cursor, a turn takes the
piece that the bytes ahead make in the current mode.
-/

namespace WasmText

namespace Lexer

/-- The source line that is shown at a location of the bytes. -/
def lineShown (bytes : Bytes) (anchor : LineAnchor) (width : Nat) (location : Location) :
    Option SourceLine :=
  if width = 0 then
    none
  else
    ((SourceLine.search anchor location width).run (Source.ofBytes bytes)).1.toOption

/-- The diagnostic for an error that covers the bytes between two offsets. -/
def diagnostic (error : LexError) (first last : Nat) (lexer : Lexer Cursor) : Diagnostic where
  location := lexer.location first last
  message := error.message
  sourceLine :=
    lineShown lexer.tape.bytes lexer.anchor lexer.lineWidth (lexer.location first last)

/-- The bytes of a bad text up to the cursor. In other modes a token starts at the cursor. -/
def pending (lexer : Lexer Cursor) : List UInt8 :=
  if lexer.mode = .badText then lexer.tape.pending else []

/-- The piece that the next step takes. -/
def piece (lexer : Lexer Cursor) : Piece :=
  .next lexer.mode lexer.nesting lexer.pending lexer.tape.ahead

/-- The lexer at the beginning of a step. -/
def begun (lexer : Lexer Cursor) : Lexer Cursor :=
  { lexer with
    tape := { lexer.tape with
      token := if lexer.mode = .badText then lexer.tape.token else lexer.tape.offset
      marker := lexer.tape.offset } }

/-- The lexer behind a piece, the mode not yet changed. -/
def behind (piece : Piece) (lexer : Lexer Cursor) : Lexer Cursor :=
  let last := lexer.tape.offset + piece.taken.length
  { lexer with
    tape := { lexer.tape with
      token := if piece.ends then last else lexer.tape.token
      marker := if piece.ends then last else lexer.tape.marker
      offset := last }
    line := if piece.breaksLine then lexer.line + 1 else lexer.line
    lineOffset := if piece.breaksLine then last else lexer.lineOffset
    nesting := piece.nesting
    finished := piece.error.elim lexer.finished fun error => lexer.finished || error.isFatal
    reported := piece.error.elim lexer.reported fun error =>
      lexer.reported.push (lexer.diagnostic error lexer.tape.marker last) }

/-- The lexer after a turn that takes a piece. -/
def take (piece : Piece) (lexer : Lexer Cursor) : Lexer Cursor :=
  { lexer.begun.behind piece with mode := piece.mode }

end Lexer

namespace Scan

variable {τ α β : Type}

theorem run_ite {condition : Prop} [Decidable condition] (yes no : Scan τ α) (lexer : Lexer τ) :
    (if condition then yes else no) lexer = if condition then yes lexer else no lexer := by
  split <;> rfl

theorem run_bind (scan : Scan τ α) (next : α → Scan τ β) (lexer : Lexer τ) :
    (scan >>= next) lexer = next (scan lexer).1 (scan lexer).2 :=
  rfl

/-- One step, from its beginning to the change of the mode, with the lexeme that it completed. -/
def turn [Tape τ] : Scan τ (Option Lexeme) := do
  beginStep
  let taken ← step
  modify fun lexer => { lexer with mode := taken.mode }
  return taken.lexeme

/-- What follows a turn that has completed a lexeme or not. -/
def goOn [Tape τ] (steps : Nat) (completed : Option Lexeme) : Scan τ Lexeme := do
  if ← stopOnFailure then
    eof
  else
    completed.elim (lexemeWithin steps) pure

/-- A call begins with a turn, unless the input is over. -/
theorem lexemeWithin_succ [Tape τ] {lexer : Lexer τ} (running : lexer.finished = false)
    (steps : Nat) :
    lexemeWithin (steps + 1) lexer = goOn steps (turn lexer).1 (turn lexer).2 := by
  conv =>
    lhs
    unfold lexemeWithin
  change (if lexer.finished = true then _ else _ : Scan τ Lexeme) lexer = _
  rw [running, if_neg Bool.false_ne_true]
  unfold goOn turn
  simp only [run_bind]
  cases ((step (beginStep lexer).2).1).lexeme with
  | none => rfl
  | some lexeme => rfl

variable {lexer : Lexer Cursor}

theorem run_lineFor (location : Location) :
    lineFor location lexer =
      (Lexer.lineShown lexer.tape.bytes lexer.anchor lexer.lineWidth location, lexer) := by
  unfold lineFor Lexer.lineShown
  change (if lexer.lineWidth = 0 then _ else _ : Scan Cursor _) lexer = _
  split <;> rfl

theorem run_report (error : LexError) :
    report error lexer = ((), { lexer with
      reported :=
        lexer.reported.push (lexer.diagnostic error lexer.tape.marker lexer.tape.offset)
      finished := lexer.finished || error.isFatal }) := by
  unfold report
  simp only [run_bind, run_lineFor]
  rfl

/-- A step that has begun takes a piece. -/
def Takes (scan : Scan Cursor Step) (lexer : Lexer Cursor) (piece : Piece) : Prop :=
  scan lexer = (⟨piece.mode, piece.lexeme⟩, lexer.behind piece)

theorem Takes.ite {condition same : Prop} [Decidable condition] [Decidable same]
    {yes no : Scan Cursor Step} {first second : Piece} (same_iff : condition ↔ same)
    (if_yes : same → Takes yes lexer first) (if_no : ¬ same → Takes no lexer second) :
    Takes (if condition then yes else no) lexer (if same then first else second) := by
  by_cases holds : same
  · rw [if_pos holds, if_pos (same_iff.mpr holds)]
    exact if_yes holds
  · rw [if_neg holds, if_neg (mt same_iff.mp holds)]
    exact if_no holds

theorem run_peek (distance : Nat) :
    peek distance lexer = (lexer.tape.ahead[distance]?.getD 0, lexer) := by
  unfold peek ask
  rw [Cursor.peek_eq]

theorem run_isEndAt (distance : Nat) :
    isEndAt distance lexer = (decide (lexer.tape.ahead.length ≤ distance), lexer) := by
  unfold isEndAt ask
  rw [Cursor.isEndAt_eq]

/-- What is peeked at decides how to go on. -/
theorem Takes.peek {distance : Nat} {next : UInt8 → Scan Cursor Step} {piece : Piece}
    (takes : Takes (next (lexer.tape.ahead[distance]?.getD 0)) lexer piece) :
    Takes (Scan.peek distance >>= next) lexer piece := by
  rw [Takes, run_bind, run_peek]
  exact takes

theorem Takes.isEndAt {distance : Nat} {next : Bool → Scan Cursor Step} {piece : Piece}
    (takes : Takes (next (decide (lexer.tape.ahead.length ≤ distance))) lexer piece) :
    Takes (Scan.isEndAt distance >>= next) lexer piece := by
  rw [Takes, run_bind, run_isEndAt]
  exact takes

/-- Moving over bytes puts them in front of the piece that is taken after them. -/
theorem behind_moved (run : List UInt8) (piece : Piece) :
    ({ lexer with tape := lexer.tape.moved run.length } : Lexer Cursor).behind piece =
      lexer.behind (piece.after run) := by
  unfold Lexer.behind Piece.after Cursor.moved
  simp only [List.length_append, Nat.add_assoc]
  rfl

theorem Takes.moved (run : List UInt8) {scan : Scan Cursor Step} {piece : Piece}
    (takes : Takes scan { lexer with tape := lexer.tape.moved run.length } piece) :
    scan { lexer with tape := lexer.tape.moved run.length } =
      (⟨piece.mode, piece.lexeme⟩, lexer.behind (piece.after run)) := by
  rw [← behind_moved]
  exact takes

theorem run_advance {count : Nat} (inside : count ≤ lexer.tape.ahead.length) :
    advance count lexer = ((), { lexer with tape := lexer.tape.moved count }) := by
  rw [← Cursor.advance_of_le inside]
  rfl

theorem run_eatWhile (accepts : UInt8 → Bool) :
    eatWhile accepts lexer = ((), { lexer with
      tape := lexer.tape.moved (lexer.tape.ahead.takeWhile accepts).length }) :=
  rfl

theorem run_view (operation : Cursor → α) :
    view operation lexer = (operation lexer.tape, lexer) :=
  rfl

theorem run_skipUntil (wanted : UInt8 → Bool) :
    skipUntil wanted lexer = ((Piece.fromOn wanted lexer.tape.ahead).head?, { lexer with
      tape := lexer.tape.moved (Piece.before wanted lexer.tape.ahead).length }) := by
  unfold skipUntil ask
  have skipped : Tape.skipUntil wanted lexer.tape = _ := Cursor.skipUntil_eq wanted lexer.tape
  rw [skipped]
  rfl

variable {byte : UInt8} {rest : List UInt8}

theorem run_advance_one (here : lexer.tape.ahead = byte :: rest) :
    advance 1 lexer = ((), { lexer with tape := lexer.tape.moved 1 }) :=
  run_advance (by rw [here, List.length_cons]; omega)

/-! ### Normal mode -/

theorem takes_single (here : lexer.tape.ahead = byte :: rest) (kind : TokenKind) :
    Takes (single kind) lexer (.single lexer.nesting byte kind) := by
  unfold single Takes
  rw [run_bind, run_advance_one here]
  rfl

theorem takes_unexpectedChar (here : lexer.tape.ahead = byte :: rest) :
    Takes unexpectedChar lexer (.unexpectedChar lexer.nesting byte) := by
  unfold unexpectedChar Takes
  rw [run_bind, run_advance_one here, run_bind, run_report]
  rfl

theorem pending_eq_nil {cursor : Cursor} (started : cursor.token = cursor.offset) :
    cursor.pending = [] := by
  change (cursor.bytes.extract cursor.token cursor.offset).toList = []
  rw [started, Array.extract_eq_empty_of_le (Nat.min_le_left _ _)]

theorem takes_atom (started : lexer.tape.token = lexer.tape.offset) :
    Takes atom lexer
      (.ofAtom lexer.nesting (lexer.tape.ahead.takeWhile Atom.isAtomByte)) := by
  have bytes_eq : Tape.tokenBytes
      (lexer.tape.moved (lexer.tape.ahead.takeWhile Atom.isAtomByte).length) =
      (lexer.tape.ahead.takeWhile Atom.isAtomByte).toArray := by
    rw [Cursor.tokenBytes_moved (Nat.le_of_eq started), pending_eq_nil started, List.nil_append,
      ← List.prefix_iff_eq_take.mp (List.takeWhile_prefix _)]
  unfold atom Takes Piece.ofAtom
  rw [run_bind, run_eatWhile, run_bind, run_view]
  dsimp only
  rw [bytes_eq]
  cases atomLexeme? (lexer.tape.ahead.takeWhile Atom.isAtomByte).toArray with
  | some lexeme => rfl
  | none =>
      dsimp only
      rw [run_bind, run_report]
      rfl

theorem run_escapeLength (here : lexer.tape.ahead = byte :: rest) :
    escapeLength lexer = (Piece.escapeLength rest, lexer) := by
  have peeked (distance : Nat) :
      Scan.peek (distance + 1) lexer = (rest[distance]?.getD 0, lexer) := by
    rw [run_peek, here, List.getElem?_cons_succ]
  unfold escapeLength Piece.escapeLength
  rw [run_bind, peeked]
  cases rest with
  | nil => rfl
  | cons first rest =>
      dsimp only
      rw [List.getElem?_cons_zero, Option.getD_some, run_ite, run_ite]
      split
      · rfl
      split
      · rw [run_bind, peeked]
        cases rest <;> rfl
      · rfl

theorem takes_closeText (ordered : lexer.tape.token ≤ lexer.tape.offset)
    (here : lexer.tape.ahead = Ascii.quote :: rest) :
    Takes closeText lexer
      { taken := [Ascii.quote], mode := .normal, nesting := lexer.nesting
        lexeme := some (.string (lexer.tape.pending ++ [Ascii.quote])) } := by
  have bytes_eq : Tape.tokenBytes (lexer.tape.moved 1) =
      (lexer.tape.pending ++ [Ascii.quote]).toArray := by
    rw [Cursor.tokenBytes_moved ordered, here]
    rfl
  unfold closeText Takes
  rw [run_bind, run_advance_one here, run_bind, run_view]
  dsimp only
  rw [bytes_eq]
  rfl

/-- What is taken of the valid content of a string is put in front of what comes after. -/
theorem Takes.content (run : List UInt8) {scan : Scan Cursor Step}
    (ordered : lexer.tape.token ≤ lexer.tape.offset) (ahead_run : run <+: lexer.tape.ahead)
    (content : Piece.validContent lexer.tape.ahead =
      run ++ Piece.validContent (lexer.tape.ahead.drop run.length))
    (takes : Takes scan { lexer with tape := lexer.tape.moved run.length }
      (.ofContent lexer.nesting (lexer.tape.moved run.length).pending
        (lexer.tape.moved run.length).ahead)) :
    scan { lexer with tape := lexer.tape.moved run.length } =
      (⟨(Piece.ofContent lexer.nesting lexer.tape.pending lexer.tape.ahead).mode,
        (Piece.ofContent lexer.nesting lexer.tape.pending lexer.tape.ahead).lexeme⟩,
        lexer.behind (.ofContent lexer.nesting lexer.tape.pending lexer.tape.ahead)) := by
  have pending_eq : (lexer.tape.moved run.length).pending = lexer.tape.pending ++ run := by
    rw [Cursor.pending, Cursor.tokenBytes_moved ordered, ← List.prefix_iff_eq_take.mp ahead_run]
  rw [Piece.ofContent_append lexer.nesting lexer.tape.pending content, ← pending_eq,
    ← Cursor.ahead_moved]
  exact takes.moved run

/-- An escape is part of the content that what follows it goes on with. -/
theorem takes_escape (ordered : lexer.tape.token ≤ lexer.tape.offset)
    (here : lexer.tape.ahead = Ascii.backslash :: rest) {again : Scan Cursor Step}
    (goes_on : ∀ count, 0 < count → count ≤ lexer.tape.ahead.length →
      Takes again { lexer with tape := lexer.tape.moved count }
        (.ofContent lexer.nesting (lexer.tape.moved count).pending
          (lexer.tape.moved count).ahead)) :
    Takes
      (do
        let length ← escapeLength
        if length = 0 then
          return .enter .badText
        else
          advance length
          again)
      lexer (.ofContent lexer.nesting lexer.tape.pending (Ascii.backslash :: rest)) := by
  have special : isPlainStringByte Ascii.backslash = false := by decide
  rw [Takes, run_bind, run_escapeLength here]
  dsimp only
  by_cases invalid : Piece.escapeLength rest = 0
  · have stops := Piece.validContent_stop special fun _ => invalid
    have no_quote : (Ascii.backslash :: rest).head? ≠ some Ascii.quote := by
      simp [show Ascii.backslash ≠ Ascii.quote by decide]
    rw [if_pos invalid, Piece.ofContent_stop _ _ stops no_quote]
    rfl
  · have bounds := Piece.escapeLength_cases rest
    have escape_le : Piece.escapeLength rest ≤ lexer.tape.ahead.length := by
      rw [here, List.length_cons]
      omega
    rw [if_neg invalid, run_bind, run_advance escape_le]
    have run_length := Piece.length_escape invalid
    have run_prefix : Ascii.backslash :: rest.take (Piece.escapeLength rest - 1) <+:
        lexer.tape.ahead := by
      rw [here, List.cons_prefix_cons]
      exact ⟨rfl, List.take_prefix _ _⟩
    have drop_eq : (Ascii.backslash :: rest).drop (Piece.escapeLength rest) =
        rest.drop (Piece.escapeLength rest - 1) := by
      rw [List.drop_cons (by omega)]
    have taken := Takes.content _ ordered run_prefix
      (by rw [run_length, here, drop_eq, Piece.validContent_escape invalid])
      (goes_on _ (by omega) (by omega))
    rw [run_length, here] at taken
    exact taken

/-- Where the plain bytes of a string end, it is closed, goes on with an escape or is invalid. -/
theorem takes_special (ordered : lexer.tape.token ≤ lexer.tape.offset)
    (here : lexer.tape.ahead = byte :: rest) (special : isPlainStringByte byte = false)
    {again : Scan Cursor Step}
    (goes_on : ∀ count, 0 < count → count ≤ lexer.tape.ahead.length →
      Takes again { lexer with tape := lexer.tape.moved count }
        (.ofContent lexer.nesting (lexer.tape.moved count).pending
          (lexer.tape.moved count).ahead)) :
    Takes
      (if byte = Ascii.quote then
        closeText
      else if byte = Ascii.backslash then do
        let length ← escapeLength
        if length = 0 then
          return .enter .badText
        else
          advance length
          again
      else
        return .enter .badText)
      lexer (.ofContent lexer.nesting lexer.tape.pending (byte :: rest)) := by
  by_cases quote : byte = Ascii.quote
  · subst quote
    rw [if_pos rfl, Piece.ofContent_quote]
    exact takes_closeText ordered here
  have no_quote : (byte :: rest).head? ≠ some Ascii.quote := fun same => quote (by simpa using same)
  rw [if_neg quote]
  by_cases backslash : byte = Ascii.backslash
  · subst backslash
    rw [if_pos rfl]
    exact takes_escape ordered here goes_on
  · have stops : Piece.validContent (byte :: rest) = [] :=
      Piece.validContent_stop special fun same => absurd same backslash
    rw [if_neg backslash, Piece.ofContent_stop _ _ stops no_quote]
    rfl

/-- The scanner's text is the content up to its closing quote, or up to its first invalid byte. -/
theorem takes_textWithin (ordered : lexer.tape.token ≤ lexer.tape.offset) {escapes : Nat}
    (enough : lexer.tape.ahead.length < escapes) :
    Takes (textWithin escapes) lexer
      (.ofContent lexer.nesting lexer.tape.pending lexer.tape.ahead) := by
  induction escapes generalizing lexer with
  | zero => exact absurd enough (Nat.not_lt_zero _)
  | succ escapes induction =>
      have ahead_eq : (lexer.tape.moved
          (lexer.tape.ahead.takeWhile isPlainStringByte).length).ahead =
          lexer.tape.ahead.dropWhile isPlainStringByte :=
        Cursor.ahead_eatWhile isPlainStringByte lexer.tape
      unfold textWithin Takes
      rw [run_bind, run_eatWhile]
      refine Takes.content _ ordered (List.takeWhile_prefix _) ?_ (Takes.peek ?_)
      · rw [← Cursor.ahead_moved, ahead_eq]
        exact Piece.validContent_run _
      rw [ahead_eq]
      cases here : lexer.tape.ahead.dropWhile isPlainStringByte with
      | nil =>
          rw [Piece.ofContent_stop _ _ (by rw [Piece.validContent]) (by simp)]
          rfl
      | cons byte rest =>
          have special := List.head?_dropWhile_not isPlainStringByte lexer.tape.ahead
          rw [here] at special
          rw [List.getElem?_cons_zero, Option.getD_some]
          refine takes_special (Nat.le_add_right_of_le ordered) (ahead_eq.trans here) special ?_
          intro count positive inside
          have shorter : ((lexer.tape.moved
              (lexer.tape.ahead.takeWhile isPlainStringByte).length).moved count).ahead.length <
              escapes := by
            rw [Cursor.ahead_moved, ahead_eq, List.length_drop]
            have shortened := (List.dropWhile_suffix (l := lexer.tape.ahead)
              isPlainStringByte).length_le
            rw [ahead_eq] at inside
            omega
          have moved_ordered : lexer.tape.token ≤ lexer.tape.offset +
              (lexer.tape.ahead.takeWhile isPlainStringByte).length + count := by
            omega
          exact induction moved_ordered shorter

theorem takes_text (started : lexer.tape.token = lexer.tape.offset)
    (here : lexer.tape.ahead = Ascii.quote :: rest) :
    Takes text lexer (.ofText lexer.nesting rest) := by
  have ordered := Nat.le_of_eq started
  have ahead_eq : (lexer.tape.moved 1).ahead = rest := by
    rw [Cursor.ahead_moved, here]
    rfl
  have pending_eq : (lexer.tape.moved 1).pending = [Ascii.quote] := by
    rw [Cursor.pending, Cursor.tokenBytes_moved ordered, pending_eq_nil started, here]
    rfl
  have enough : (lexer.tape.moved 1).ahead.length < Tape.remaining (lexer.tape.moved 1) + 1 := by
    rw [Cursor.length_ahead]
    exact Nat.lt_succ_self _
  have taken : Takes (textWithin (Tape.remaining (lexer.tape.moved 1) + 1))
      { lexer with tape := lexer.tape.moved 1 } _ :=
    takes_textWithin (Nat.le_succ_of_le ordered) enough
  unfold text Takes
  rw [run_bind, run_advance_one here, run_bind, run_view]
  rw [pending_eq, ahead_eq] at taken
  exact taken.moved [Ascii.quote]

/-- A byte that is not zero is seen second only if it is there. -/
theorem peeked_second_iff (here : lexer.tape.ahead = byte :: rest) {second : UInt8}
    (visible : second ≠ 0) :
    lexer.tape.ahead[1]?.getD 0 = second ↔ rest.head? = some second := by
  rw [here]
  cases rest with
  | nil => simpa using visible.symm
  | cons other rest => simp

theorem run_advance_two (here : lexer.tape.ahead = byte :: rest) {second : UInt8}
    (there : rest.head? = some second) :
    advance 2 lexer = ((), { lexer with tape := lexer.tape.moved 2 }) := by
  obtain ⟨tail, rfl⟩ := List.head?_eq_some_iff.mp there
  exact run_advance (by rw [here, List.length_cons, List.length_cons]; omega)

/-- At the end of the input nothing is taken, and the empty token that has begun there is it. -/
theorem takes_end (started : lexer.tape.token = lexer.tape.offset)
    (marked : lexer.tape.marker = lexer.tape.offset) :
    Takes (pure (Step.token .eof .none)) lexer (.normal lexer.nesting []) := by
  obtain ⟨⟨bytes, token, marker, offset⟩, filename⟩ := lexer
  cases started
  cases marked
  rfl

theorem takes_normal (started : lexer.tape.token = lexer.tape.offset)
    (marked : lexer.tape.marker = lexer.tape.offset) :
    Takes normal lexer (.normal lexer.nesting lexer.tape.ahead) := by
  refine Takes.peek ?_
  cases here : lexer.tape.ahead with
  | nil =>
      refine Takes.isEndAt ?_
      rw [here]
      exact takes_end started marked
  | cons byte rest =>
      rw [List.getElem?_cons_zero, Option.getD_some]
      by_cases zero : byte = 0
      · subst zero
        refine Takes.isEndAt ?_
        rw [here]
        exact takes_unexpectedChar here
      rw [if_neg zero, Piece.normal]
      refine Takes.ite Iff.rfl (fun opens => Takes.peek ?_) fun _ => ?_
      · refine Takes.ite (peeked_second_iff here (by decide)) (fun second => ?_) fun _ =>
          takes_single here _
        rw [Takes, run_bind, run_advance_two here second]
        rfl
      refine Takes.ite Iff.rfl (fun closes => takes_single here _) fun _ => ?_
      refine Takes.ite Iff.rfl (fun semicolon => Takes.peek ?_) fun _ => ?_
      · refine Takes.ite (peeked_second_iff here (by decide)) (fun second => ?_) fun _ =>
          takes_unexpectedChar here
        rw [Takes, run_bind, run_advance_two here second]
        rfl
      refine Takes.ite Iff.rfl (fun quote => ?_) fun _ => ?_
      · subst quote
        exact takes_text started here
      refine Takes.ite Iff.rfl (fun blank => ?_) fun _ => ?_
      · rw [Takes, run_bind, run_eatWhile, here]
        rfl
      refine Takes.ite Iff.rfl (fun newline => ?_) fun _ => ?_
      · rw [Takes, run_bind, run_advance_one here]
        rfl
      refine Takes.ite Iff.rfl (fun atom_byte => ?_) fun _ => takes_unexpectedChar here
      rw [← here]
      exact takes_atom started

/-! ### Bad texts -/

theorem takes_lone (here : lexer.tape.ahead = Ascii.backslash :: rest) :
    Takes badTextEscape.lone lexer (Piece.ofBackslash.lone lexer.nesting) := by
  unfold badTextEscape.lone Takes
  rw [run_bind, run_advance_one here, run_bind, run_report]
  rfl

theorem takes_badTextEscape (marked : lexer.tape.marker = lexer.tape.offset)
    (here : lexer.tape.ahead = Ascii.backslash :: rest) :
    Takes badTextEscape lexer (.ofBackslash lexer.nesting rest) := by
  unfold badTextEscape Piece.ofBackslash
  rw [Takes, run_bind, run_escapeLength here]
  refine Takes.ite Iff.rfl (fun invalid => Takes.peek ?_) fun valid => ?_
  · cases rest with
    | nil =>
        rw [here]
        refine Takes.isEndAt ?_
        rw [here]
        exact takes_lone here
    | cons byte rest =>
        rw [here, List.getElem?_cons_succ, List.getElem?_cons_zero, Option.getD_some]
        refine Takes.ite Iff.rfl (fun newline => takes_lone here) fun _ => Takes.isEndAt ?_
        have bytes_eq :
            Tape.markedBytes (lexer.tape.moved 2) = [Ascii.backslash, byte].toArray := by
          rw [Cursor.markedBytes_moved marked, here]
          rfl
        rw [here, if_neg (by simp), Takes, run_bind, run_advance_two here rfl, run_bind, run_view]
        dsimp only
        rw [bytes_eq, run_bind, run_report]
        rfl
  · have bounds := Piece.escapeLength_cases rest
    have escape_le : Piece.escapeLength rest ≤ lexer.tape.ahead.length := by
      rw [here, List.length_cons]
      omega
    rw [Takes, run_bind, run_advance escape_le]
    unfold Lexer.behind
    rw [Piece.length_escape valid]
    rfl

theorem takes_illegalChar (here : lexer.tape.ahead = byte :: rest) :
    Takes badText.illegalChar lexer
      { taken := [byte], mode := .badText, nesting := lexer.nesting
        error := some .illegalCharInString } := by
  unfold badText.illegalChar Takes
  rw [run_bind, run_advance_one here, run_bind, run_report]
  rfl

theorem takes_badText (ordered : lexer.tape.token ≤ lexer.tape.offset)
    (marked : lexer.tape.marker = lexer.tape.offset) :
    Takes badText lexer (.badText lexer.nesting lexer.tape.pending lexer.tape.ahead) := by
  refine Takes.peek ?_
  cases here : lexer.tape.ahead with
  | nil =>
      refine Takes.isEndAt ?_
      rw [here, Takes, if_pos (by decide), run_bind, run_report]
      rfl
  | cons byte rest =>
      rw [List.getElem?_cons_zero, Option.getD_some]
      by_cases zero : byte = 0
      · subst zero
        refine Takes.isEndAt ?_
        rw [here]
        exact takes_illegalChar here
      rw [if_neg zero, Piece.badText]
      refine Takes.ite Iff.rfl (fun quote => ?_) fun _ => ?_
      · subst quote
        exact takes_closeText ordered here
      refine Takes.ite Iff.rfl (fun newline => ?_) fun _ => ?_
      · rw [Takes, run_bind, run_advance_one here, run_bind, run_report]
        rfl
      refine Takes.ite Iff.rfl (fun backslash => ?_) fun _ => ?_
      · subst backslash
        exact takes_badTextEscape marked here
      refine Takes.ite Iff.rfl (fun plain => ?_) fun _ => takes_illegalChar here
      rw [Takes, run_bind, run_eatWhile, here]
      rfl

/-! ### Comments -/

/-- What a skip leaves ahead begins with the byte that was looked for. -/
theorem ahead_before (wanted : UInt8 → Bool) (cursor : Cursor) :
    (cursor.moved (Piece.before wanted cursor.ahead).length).ahead =
      Piece.fromOn wanted cursor.ahead :=
  Cursor.ahead_eatWhile (fun byte => !wanted byte) cursor

theorem takes_lineComment :
    Takes lineComment lexer (.lineComment lexer.nesting lexer.tape.ahead) := by
  unfold lineComment Piece.lineComment Takes
  rw [run_bind, run_skipUntil]
  dsimp only
  cases here : Piece.fromOn (· == Ascii.newline) lexer.tape.ahead with
  | nil =>
      rw [Piece.before_of_fromOn here]
      rfl
  | cons byte rest =>
      have there := (ahead_before (· == Ascii.newline) lexer.tape).trans here
      rw [List.head?_cons]
      dsimp only
      rw [run_bind, run_advance_one there]
      unfold Lexer.behind
      rw [List.length_append]
      rfl

/-- The scanner's step in a block comment from the byte on at which it stops. -/
theorem takes_stop (here : lexer.tape.ahead = byte :: rest) :
    Takes
      (if byte = Ascii.newline then do
        advance 1
        startLine
        return .enter .blockComment
      else if byte = Ascii.leftParen then do
        if (← peek 1) = Ascii.semicolon then
          advance 2
          nest (· + 1)
        else
          advance 1
        return .enter .blockComment
      else do
        if (← peek 1) = Ascii.rightParen then
          advance 2
          nest (· - 1)
          return .enter (if (← get).nesting = 0 then .normal else .blockComment)
        else
          advance 1
          return .enter .blockComment)
      lexer (.ofStop lexer.nesting byte rest) := by
  refine Takes.ite Iff.rfl (fun newline => ?_) fun _ => ?_
  · rw [Takes, run_bind, run_advance_one here]
    rfl
  refine Takes.ite Iff.rfl (fun opens => Takes.peek ?_) fun _ => Takes.peek ?_
  · refine Takes.ite (peeked_second_iff here (by decide)) (fun second => ?_) fun _ => ?_
    · rw [Takes, run_bind, run_advance_two here second]
      rfl
    · rw [Takes, run_bind, run_advance_one here]
      rfl
  · refine Takes.ite (peeked_second_iff here (by decide)) (fun second => ?_) fun _ => ?_
    · rw [Takes, run_bind, run_advance_two here second]
      rfl
    · rw [Takes, run_bind, run_advance_one here]
      rfl

theorem takes_blockComment :
    Takes blockComment lexer (.blockComment lexer.nesting lexer.tape.ahead) := by
  unfold blockComment Piece.blockComment Takes
  rw [run_bind, run_skipUntil]
  dsimp only
  cases here : Piece.fromOn stopsBlockComment lexer.tape.ahead with
  | nil =>
      rw [List.head?_nil, Piece.before_of_fromOn here]
      dsimp only
      rw [run_bind, run_report]
      rfl
  | cons byte rest =>
      have there := (ahead_before stopsBlockComment lexer.tape).trans here
      exact Takes.moved (Piece.before stopsBlockComment lexer.tape.ahead) (takes_stop there)

/-! ### Whole turns -/

theorem run_beginStep : beginStep lexer = ((), lexer.begun) := by
  have run_if : beginStep lexer = (if lexer.mode ≠ .badText then do
      move Tape.beginToken
      move Tape.mark
    else move Tape.mark : Scan Cursor Unit) lexer := rfl
  rw [run_if, run_ite]
  unfold Lexer.begun
  by_cases text : lexer.mode = .badText
  · rw [if_neg (not_not_intro text), if_pos text]
    rfl
  · rw [if_pos text, if_neg text]
    rfl

theorem takes_step (ordered : lexer.tape.token ≤ lexer.tape.offset) :
    Takes step lexer.begun lexer.piece := by
  have mode_eq : ((get : Scan Cursor (Lexer Cursor)) lexer.begun).1.mode = lexer.mode := rfl
  rw [Takes, step, run_bind, mode_eq]
  unfold Lexer.piece Piece.next Lexer.pending
  cases mode : lexer.mode with
  | normal =>
      have started : lexer.begun.tape.token = lexer.tape.offset := by
        change (if lexer.mode = .badText then _ else _) = _
        rw [mode, if_neg (by decide)]
      exact takes_normal started rfl
  | badText =>
      have kept : lexer.begun.tape.token = lexer.tape.token := by
        change (if lexer.mode = .badText then _ else _) = _
        rw [mode, if_pos rfl]
      have pending_eq : lexer.begun.tape.pending = lexer.tape.pending := by
        change (lexer.tape.bytes.extract lexer.begun.tape.token lexer.tape.offset).toList = _
        rw [kept]
        rfl
      have taken : Takes badText lexer.begun _ := takes_badText (kept ▸ ordered) rfl
      rw [if_pos rfl, ← pending_eq]
      exact taken
  | lineComment => exact takes_lineComment
  | blockComment => exact takes_blockComment

/-- A turn takes the piece that the bytes ahead make. -/
theorem run_turn (ordered : lexer.tape.token ≤ lexer.tape.offset) :
    turn lexer = (lexer.piece.lexeme, lexer.take lexer.piece) := by
  unfold turn
  rw [run_bind, run_beginStep, run_bind, takes_step ordered]
  rfl

end Scan

end WasmText
