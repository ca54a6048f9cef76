import WasmText.Proofs.Lexer.Ending

/-!
# The course of a call

Between two of its turns a call is underway to what it comes to. Where no refill fails, each turn
that is left does what the turn of the bare lexer does, so that the bare lexer says where the call
passes and what it comes to.
-/

namespace WasmText

namespace Lexer

variable {contents : Bytes} {begun : Lexer Buffer} {outcome : Lexeme × Lexer Buffer}

/-- A lexer over a cursor takes turns that complete nothing. -/
inductive Passes : Lexer Cursor → Lexer Cursor → Prop
  | refl (lexer : Lexer Cursor) : Passes lexer lexer
  | turn {lexer last : Lexer Cursor} (running : lexer.finished = false)
      (skips : lexer.piece.lexeme = none) (further : Passes (lexer.take lexer.piece) last) :
      Passes lexer last

theorem Skips.trans {first second third : Lexer Buffer} (left : Skips first second)
    (right : Skips second third) : Skips first third := by
  induction left with
  | refl => exact right
  | turn running skips _ induction => exact .turn running skips (induction right)

/-- A lexer in the middle of a call that comes to an outcome without a failed refill. -/
structure Underway (contents : Bytes) (begun : Lexer Buffer) (outcome : Lexeme × Lexer Buffer) :
    Prop extends Ready contents begun where
  /-- The rounds that are left come to the outcome. -/
  ends : Loop.Ends Scan.round begun outcome
  /-- No refill has failed then. -/
  arrives : outcome.2.tape.stalled = false

/-- A call begins underway. -/
theorem Ready.underway (ready : begun.Ready contents)
    (flowing : begun.next.2.tape.stalled = false) : Underway contents begun (Scan.lexeme begun) :=
  { ready with ends := ready.ends_lexeme, arrives := flowing }

namespace Underway

variable (underway : Underway contents begun outcome)

include underway

/-- The next round is a turn, in which no refill fails. -/
theorem round_eq (running : begun.finished = false) :
    (Scan.turn begun).2.tape.stalled = false ∧ Scan.round begun = Scan.turn begun := by
  have turn_shows := (Scan.simulation_tracksBare.turn begun underway.shows).shows
  have round_flowing : (Scan.round begun).2.tape.stalled = false := by
    have round_ends := underway.toReady.round.2
    have arrives := underway.arrives
    cases underway.ends with
    | done gives =>
        rw [gives]
        exact arrives
    | again goes_on =>
        rw [goes_on] at round_ends ⊢
        generalize outcome_eq : (none, _) = between at round_ends
        cases round_ends with
        | stopped => cases outcome_eq
        | turned _ flowing => exact flowing
  rw [Scan.round_of_running running] at round_flowing
  have turn_flowing : (Scan.turn begun).2.tape.stalled = false := by
    refine ((Scan.simulation_tracksBare.stopOnFailure Scan.tracksBare_takeFailure _
      turn_shows).agrees ?_).1
    split at round_flowing
    · exact round_flowing
    · exact round_flowing
  refine ⟨turn_flowing, ?_⟩
  rw [Scan.round_of_running running, Scan.stopOnFailure_of_flowing turn_shows turn_flowing,
    if_neg Bool.false_ne_true]
  rfl

/-- The next turn is the one of the bare lexer. -/
theorem turn_eq (running : begun.finished = false) :
    (Scan.turn begun).1 = (begun.bare contents).piece.lexeme ∧
      (Scan.turn begun).2.bare contents = (begun.bare contents).take (begun.bare contents).piece :=
  underway.toReady.turn running (underway.round_eq running).1

/-- Behind a turn that completes nothing the call is still underway. -/
theorem skip (running : begun.finished = false) (skips : (Scan.turn begun).1 = none) :
    Underway contents (Scan.turn begun).2 outcome := by
  have round_eq := (underway.round_eq running).2
  have next_ready := underway.toReady.round_ready
  rw [round_eq] at next_ready
  cases underway.ends with
  | done gives =>
      rw [round_eq] at gives
      rw [gives] at skips
      cases skips
  | again goes_on further =>
      rw [round_eq] at goes_on
      rw [goes_on] at next_ready ⊢
      exact { next_ready with ends := further, arrives := underway.arrives }

/-- A turn that completes a lexeme is the last of its call. -/
theorem outcome_eq (running : begun.finished = false) {lexeme : Lexeme}
    (completes : (begun.bare contents).piece.lexeme = some lexeme) :
    outcome.1 = lexeme ∧
      outcome.2.bare contents = (begun.bare contents).take (begun.bare contents).piece := by
  have round_eq := (underway.round_eq running).2
  obtain ⟨lexeme_eq, bare_eq⟩ := underway.turn_eq running
  cases underway.ends with
  | done gives =>
      rw [round_eq] at gives
      rw [gives] at lexeme_eq bare_eq
      exact ⟨Option.some.inj (lexeme_eq.trans completes), bare_eq⟩
  | again goes_on =>
      rw [round_eq] at goes_on
      rw [goes_on, completes] at lexeme_eq
      cases lexeme_eq

/-- A call stays underway as long as its turns complete nothing. -/
theorem skips {after : Lexer Buffer} (skips : Skips begun after) :
    Underway contents after outcome := by
  induction skips with
  | refl => exact underway
  | turn running skips _ induction => exact induction (underway.skip running skips)

/-- Where the bare lexer passes, the call does. -/
theorem passes {plain : Lexer Cursor} (passes : Passes (begun.bare contents) plain) :
    ∃ after, Skips begun after ∧ after.bare contents = plain := by
  generalize bare_eq : begun.bare contents = bare at passes
  induction passes generalizing begun with
  | refl => exact ⟨begun, .refl begun, bare_eq⟩
  | turn running skips _ induction =>
      subst bare_eq
      obtain ⟨lexeme_eq, next_eq⟩ := underway.turn_eq running
      obtain ⟨after, further, after_eq⟩ :=
        induction (underway.skip running (lexeme_eq.trans skips)) next_eq
      exact ⟨after, .turn running (lexeme_eq.trans skips) further, after_eq⟩

end Underway

/-- A call of a lexer over a source is underway between any two of its turns. -/
theorem underway_opened {source : Source} (reads : source.contents = contents)
    (unread : source.position = 0) {filename : String} {lineWidth size bound calls : Nat}
    (flowing : ((opened filename lineWidth source size bound).after (calls + 1)).tape.stalled =
      false)
    (skips : Skips ((opened filename lineWidth source size bound).after calls) begun) :
    Underway contents begun
      (Scan.lexeme ((opened filename lineWidth source size bound).after calls)) :=
  (((ready_opened reads unread filename lineWidth size bound).after calls).underway flowing).skips
    skips

/-- What a call reads, from what it comes to. -/
theorem reading_bare (calls : Nat) (lexer : Lexer Buffer) (contents : Bytes) :
    (lexer.reading calls).bare =
      (handOut (Scan.lexeme (lexer.after calls)).1
        ((Scan.lexeme (lexer.after calls)).2.bare contents)).1 :=
  rfl

/-- What a call reads, where a turn of it completes a lexeme. -/
theorem Underway.reading_eq {lexer : Lexer Buffer} {calls : Nat}
    (underway : Underway contents begun (Scan.lexeme (lexer.after calls)))
    (running : begun.finished = false) {lexeme : Lexeme}
    (completes : (begun.bare contents).piece.lexeme = some lexeme) :
    (lexer.reading calls).bare =
      (handOut lexeme ((begun.bare contents).take (begun.bare contents).piece)).1 := by
  obtain ⟨lexeme_eq, bare_eq⟩ := underway.outcome_eq running completes
  rw [reading_bare calls lexer contents, lexeme_eq, bare_eq]

/-- The bytes ahead of a lexer, from the next one on. -/
theorem ahead_bare {byte : UInt8} (here : contents[begun.tape.cursor]? = some byte) :
    (begun.bare contents).tape.ahead = byte :: contents.toList.drop (begun.tape.cursor + 1) := by
  obtain ⟨inside, rfl⟩ := Array.getElem?_eq_some_iff.mp here
  have inside_list : begun.tape.cursor < contents.toList.length := inside
  exact List.drop_eq_getElem_cons inside_list

/-- A byte of the contents is one of those ahead. -/
theorem getElem?_ahead_bare (distance : Nat) :
    contents[begun.tape.cursor + distance]? = (begun.bare contents).tape.ahead[distance]? :=
  (Cursor.getElem?_ahead (begun.bare contents).tape distance).symm

/-- After the end of the input nothing else is read. -/
theorem Ready.reads_eof {lexer : Lexer Buffer} (ready : lexer.Ready contents) {first later : Nat}
    (before : first < later) (eof : (lexer.reading first).token.isEof = true) :
    (lexer.reading later).token.isEof = true ∧ (lexer.reading later).diagnostics = #[] := by
  rw [(ready.stays before eof).1]
  exact ⟨rfl, rfl⟩

end Lexer

end WasmText
