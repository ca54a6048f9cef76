import WasmText.Proofs.Buffer.Ending
import WasmText.Proofs.Lexer.Bare
import WasmText.Proofs.Lexer.Call

/-!
# The loops of a scanner end

A string is taken escape by escape, and a call does rounds of one turn each. Both are loops with
fuel that never run out of it, whatever the source does: an escape has bytes, and a turn that
completes nothing takes some unless a refill fails, which ends the input.
-/

namespace WasmText

namespace Buffer

variable {contents : Bytes} {buffer : Buffer}

theorem Shows.onward_undisturbed (shows : buffer.Shows contents) {source : Source}
    (undisturbed : Search.Undisturbed buffer.source source) :
    Onward contents buffer { buffer with source } := by
  refine ⟨shows.undisturbed undisturbed, Nat.le_refl _, ?_⟩
  rw [horizon, horizon, undisturbed.contents]
  exact Nat.le_refl _

/-- A property of buffers that outlasts all that a scan does with them. -/
structure Outlasts (Good : Buffer → Prop) : Prop where
  beginToken : ∀ {buffer}, Good buffer → Good buffer.beginToken
  mark : ∀ {buffer}, Good buffer → Good buffer.mark
  reach : ∀ {buffer} ahead, Good buffer → Good (buffer.reach ahead)
  advance : ∀ {buffer} count, Good buffer → Good (buffer.advance count)
  eatWhile : ∀ {buffer} accepts, Good buffer → Good (buffer.eatWhile accepts)
  skipUntil : ∀ {buffer} wanted, Good buffer → Good (buffer.skipUntil wanted).2
  /-- The source may be searched. -/
  search : ∀ {buffer source}, Search.Undisturbed buffer.source source → Good buffer →
    Good { buffer with source }

theorem Lasts.outlasts {Good : Buffer → Prop} (lasts : Lasts Good)
    (beginToken : ∀ {buffer}, Good buffer → Good buffer.beginToken)
    (mark : ∀ {buffer}, Good buffer → Good buffer.mark)
    (search : ∀ {buffer source}, Good buffer → Good { buffer with source }) : Outlasts Good where
  beginToken := beginToken
  mark := mark
  reach := lasts.reach
  advance := fun count good => lasts.advance good count
  eatWhile := fun accepts good => lasts.eatWhile good accepts
  skipUntil := fun wanted good => lasts.skipUntil good wanted
  search := fun _ => search

theorem outlasts_onward (contents : Bytes) (before : Buffer) :
    Outlasts (Onward contents before) where
  beginToken := fun onward =>
    ⟨onward.shows.beginToken, onward.cursor_le, onward.horizon_le⟩
  mark := fun onward => ⟨onward.shows.mark, onward.cursor_le, onward.horizon_le⟩
  reach := fun ahead onward => onward.trans (onward.shows.onward_reach ahead)
  advance := fun count onward => onward.trans (onward.shows.onward_advance count)
  eatWhile := fun accepts onward => onward.trans (onward.shows.onward_eatWhile accepts)
  skipUntil := fun wanted onward => onward.trans (onward.shows.onward_skipUntil wanted)
  search := fun undisturbed onward => onward.trans (onward.shows.onward_undisturbed undisturbed)

end Buffer

namespace Scan

variable {α β : Type} {contents : Bytes} {Good : Buffer → Prop} {lexer : Lexer Buffer}

/-- A scan leaves a buffer good. -/
def Keeps (Good : Buffer → Prop) (scan : Scan Buffer α) : Prop :=
  ∀ lexer : Lexer Buffer, Good lexer.tape → Good (scan lexer).2.tape

theorem keeps_report (outlasts : Buffer.Outlasts Good) (error : LexError) :
    Keeps Good (report error) := by
  intro lexer good
  obtain ⟨shown, source, undisturbed, looked_up⟩ :=
    lineFor_undisturbed (lexer.location lexer.tape.marker lexer.tape.cursor) lexer
  have reported := report_eq error lexer
  simp only [looked_up] at reported
  rw [reported]
  exact outlasts.search undisturbed good

theorem simulation_keeps (outlasts : Buffer.Outlasts Good) :
    Simulation (σ := Buffer) (τ := Buffer) fun _ scan _ => Keeps Good scan where
  pure := fun _ _ => id
  bind := fun first second lexer good => second _ _ (first lexer good)
  get := fun next lexer good => next lexer lexer ⟨rfl, rfl, rfl⟩ lexer good
  beginToken := fun _ => outlasts.beginToken
  mark := fun _ => outlasts.mark
  peek := fun ahead _ => outlasts.reach ahead
  isEndAt := fun ahead _ => outlasts.reach ahead
  advance := fun count _ => outlasts.advance count
  eatWhile := fun accepts _ => outlasts.eatWhile accepts
  skipUntil := fun wanted _ => outlasts.skipUntil wanted
  tokenBytes := fun _ => id
  markedBytes := fun _ => id
  remaining := fun _ => id
  startLine := fun _ => id
  nest := fun _ _ => id
  enter := fun _ _ => id
  report := keeps_report outlasts

/-! ### Strings -/

/-- Takes plain bytes of a string and the escape behind them, or says how the string goes on. -/
def textOnce {τ : Type} [Tape τ] : Scan τ (Option Step) := do
  eatWhile isPlainStringByte
  let byte ← peek 0
  if byte = Ascii.quote then
    return some (← closeText)
  else if byte = Ascii.backslash then
    let length ← escapeLength
    if length = 0 then
      return some (.enter .badText)
    else
      advance length
      return none
  else
    return some (.enter .badText)

theorem unfolds_textWithin :
    Loop.Unfolds (textOnce : Scan Buffer (Option Step)) textWithin := by
  intro escapes lexer
  unfold textOnce
  rw [textWithin]
  simp only [run_bind]
  generalize eatWhile isPlainStringByte lexer = eaten
  generalize peek 0 eaten.2 = peeked
  obtain ⟨byte, seen⟩ := peeked
  dsimp only
  by_cases quote : byte = Ascii.quote
  · rw [if_pos quote, if_pos quote]
    rfl
  rw [if_neg quote, if_neg quote]
  by_cases backslash : byte = Ascii.backslash
  · rw [if_pos backslash, if_pos backslash]
    simp only [run_bind]
    generalize escapeLength seen = measured
    obtain ⟨length, measured⟩ := measured
    dsimp only
    by_cases invalid : length = 0
    · rw [if_pos invalid, if_pos invalid]
      rfl
    · rw [if_neg invalid, if_neg invalid]
      rfl
  · rw [if_neg backslash, if_neg backslash]
    rfl

theorem Simulation.textOnce {σ τ : Type} [Tape σ] [Tape τ]
    {Tracks : ∀ α : Type, Scan σ α → Scan τ α → Prop} (sim : Simulation Tracks) :
    Tracks (Option Step) Scan.textOnce Scan.textOnce := by
  refine sim.bind (sim.eatWhile _) fun _ => sim.bind (sim.peek 0) fun _ => ?_
  refine either (sim.bind sim.closeText fun _ => sim.pure _) ?_
  refine either (sim.bind sim.escapeLength fun _ => ?_) (sim.pure _)
  exact either (sim.pure _) (sim.bind (sim.advance _) fun _ => sim.pure _)

/-- Only a byte of the contents is seen as another than zero. -/
theorem inside_of_peek (ahead : Nat) (shows : lexer.tape.Shows contents)
    (visible : (peek ahead lexer).1 ≠ 0) :
    (peek ahead lexer).2.tape.Shows contents ∧
      (peek ahead lexer).2.tape.cursor < (peek ahead lexer).2.tape.dataEnd := by
  refine ⟨shows.reach ahead, ?_⟩
  have inside := shows.inside_of_peek visible
  exact Nat.lt_of_le_of_lt (Nat.le_add_right _ _) inside

/-- The bytes of an escape are there. -/
theorem inside_of_escapeLength (shows : lexer.tape.Shows contents)
    (valid : (escapeLength lexer).1 ≠ 0) :
    (escapeLength lexer).2.tape.cursor < (escapeLength lexer).2.tape.dataEnd := by
  have visible_of_escaped {byte : UInt8} (escaped : isEscaped byte = true) : byte ≠ 0 := by
    rintro rfl
    cases escaped
  have visible_of_digit {byte : UInt8} (digit : Ascii.isHexDigit byte = true) : byte ≠ 0 := by
    rintro rfl
    cases digit
  have first_inside := inside_of_peek 1 shows
  unfold escapeLength at valid ⊢
  rw [run_bind] at valid ⊢
  generalize peek 1 lexer = first at first_inside valid ⊢
  obtain ⟨first, seen⟩ := first
  dsimp only at first_inside valid ⊢
  by_cases escaped : isEscaped first = true
  · rw [if_pos escaped]
    exact (first_inside (visible_of_escaped escaped)).2
  rw [if_neg escaped] at valid ⊢
  by_cases digit : Ascii.isHexDigit first = true
  · rw [if_pos digit, run_bind] at valid ⊢
    have second_inside := inside_of_peek 2 (first_inside (visible_of_digit digit)).1
    generalize peek 2 seen = second at second_inside valid ⊢
    obtain ⟨second, last⟩ := second
    dsimp only at second_inside valid ⊢
    by_cases second_digit : Ascii.isHexDigit second = true
    · exact (second_inside (visible_of_digit second_digit)).2
    · rw [if_neg second_digit] at valid
      exact absurd rfl valid
  · rw [if_neg digit] at valid
    exact absurd rfl valid

/-- Where a string goes on behind an escape, the cursor has moved. -/
theorem lt_of_textOnce {after : Lexer Buffer} (shows : lexer.tape.Shows contents)
    (goes_on : textOnce lexer = (none, after)) : lexer.tape.cursor < after.tape.cursor := by
  have eaten_onward := shows.onward_eatWhile isPlainStringByte
  unfold textOnce at goes_on
  rw [run_bind, run_bind] at goes_on
  change Buffer.Onward contents lexer.tape (eatWhile isPlainStringByte lexer).2.tape
    at eaten_onward
  generalize eatWhile isPlainStringByte lexer = eaten at eaten_onward goes_on
  have seen_onward := eaten_onward.trans (eaten_onward.shows.onward_reach 0)
  change Buffer.Onward contents lexer.tape (peek 0 eaten.2).2.tape at seen_onward
  generalize peek 0 eaten.2 = peeked at seen_onward goes_on
  obtain ⟨byte, seen⟩ := peeked
  dsimp only at seen_onward goes_on
  by_cases quote : byte = Ascii.quote
  · rw [if_pos quote] at goes_on
    cases goes_on
  by_cases backslash : byte = Ascii.backslash
  · rw [if_neg quote, if_pos backslash, run_bind] at goes_on
    have keeps := (simulation_keeps (Buffer.outlasts_onward contents lexer.tape)).escapeLength
    have measured_onward := keeps seen seen_onward
    have inside := inside_of_escapeLength seen_onward.shows
    generalize escapeLength seen = measured at measured_onward inside goes_on
    obtain ⟨length, measured⟩ := measured
    dsimp only at measured_onward inside goes_on
    by_cases invalid : length = 0
    · rw [if_pos invalid] at goes_on
      cases goes_on
    · rw [if_neg invalid] at goes_on
      cases goes_on
      obtain ⟨further, rfl⟩ := Nat.exists_eq_succ_of_ne_zero invalid
      exact Nat.lt_of_le_of_lt measured_onward.cursor_le
        (measured_onward.shows.advance_lt (inside invalid) further)
  · rw [if_neg quote, if_neg backslash] at goes_on
    cases goes_on

/-- There are always escapes enough. -/
theorem ends_textWithin (shows : lexer.tape.Shows contents) :
    Loop.Ends textOnce lexer (textWithin (Tape.remaining lexer.tape + 1) lexer) := by
  have shrinks (state next : Lexer Buffer) (state_shows : state.tape.Shows contents)
      (goes_on : textOnce state = (none, next)) :
      next.tape.Shows contents ∧
        next.tape.horizon - next.tape.cursor < state.tape.horizon - state.tape.cursor := by
    have keeps := (simulation_keeps (Buffer.outlasts_onward contents state.tape)).textOnce
    have onward := keeps state (.refl state_shows)
    rw [goes_on] at onward
    exact ⟨onward.shows, onward.closer (lt_of_textOnce state_shows goes_on)⟩
  exact unfolds_textWithin.ends shrinks shows (Nat.lt_succ_of_le shows.horizon_le_remaining)

/-! ### Failures -/

/-- A failed refill has left a failure that is reported. -/
def Tells (buffer : Buffer) : Prop :=
  buffer.stalled = true → (buffer.failure.bind failureError).isSome = true

theorem Tells.refill {buffer : Buffer} (need : Nat) (tells : Tells buffer) :
    Tells (buffer.refill need).2 := by
  have kept := Buffer.kept_refill need buffer
  unfold Tells
  rw [kept.stalled, kept.failure]
  exact tells

theorem isSome_failureError {failure : RefillError} (real : failure ≠ .exhausted) :
    (failureError failure).isSome = true := by
  cases failure with
  | exhausted => exact absurd rfl real
  | outOfMemory | capacityOverflow | unreadable => rfl

theorem outlasts_tells : Buffer.Outlasts Tells := by
  have reach {buffer : Buffer} (ahead : Nat) (tells : Tells buffer) : Tells (buffer.reach ahead) :=
    Buffer.reachWithin_keeps Tells (fun need tells => tells.refill need)
      (fun real _ _ _ _ => isSome_failureError real) tells ahead _
  exact Buffer.Lasts.outlasts ⟨reach, id⟩ id id id

theorem finished_report (error : LexError) (lexer : Lexer Buffer) :
    (report error lexer).2.finished = (lexer.finished || error.isFatal) := by
  obtain ⟨shown, source, -, looked_up⟩ :=
    lineFor_undisturbed (lexer.location lexer.tape.marker lexer.tape.cursor) lexer
  have reported := report_eq error lexer
  simp only [looked_up] at reported
  rw [reported]

/-- A failed refill is found, and the input is over. -/
theorem stopOnFailure_of_stalled (tells : Tells lexer.tape) (stalled : lexer.tape.stalled = true) :
    ∃ after, stopOnFailure lexer = (true, after) ∧ after.finished = true := by
  obtain ⟨error, failure_eq⟩ := Option.isSome_iff_exists.mp (tells stalled)
  have fatal : error.isFatal = true := by
    obtain ⟨refusal, -, error_eq⟩ := Option.bind_eq_some_iff.mp failure_eq
    cases refusal with
    | exhausted => cases error_eq
    | outOfMemory | capacityOverflow | unreadable =>
        cases error_eq
        rfl
  have stopped : stopOnFailure lexer = (true, (report error
      { lexer with tape := { lexer.tape with failure := none } }).2) := by
    have taken : ask Tape.takeFailure lexer =
        (lexer.tape.failure, { lexer with tape := { lexer.tape with failure := none } }) := rfl
    rw [stopOnFailure, run_bind, taken]
    dsimp only
    rw [failure_eq]
    rfl
  refine ⟨_, stopped, ?_⟩
  rw [finished_report, fatal, Bool.or_true]

/-! ### Rounds -/

/-- A turn, after which a failure ends the input. -/
def round {τ : Type} [Tape τ] : Scan τ (Option Lexeme) := do
  if (← get).finished then
    return some (← eof)
  else
    let completed ← turn
    if ← stopOnFailure then
      return some (← eof)
    else
      return completed

theorem round_of_finished (finished : lexer.finished = true) :
    round lexer = (some .eof, { lexer with tape := lexer.tape.beginToken }) := by
  unfold round
  change (if lexer.finished = true then _ else _ : Scan Buffer (Option Lexeme)) lexer = _
  rw [if_pos finished]
  rfl

theorem round_of_running (running : lexer.finished = false) :
    round lexer = (if (stopOnFailure (turn lexer).2).1 = true then
      (some .eof, { (stopOnFailure (turn lexer).2).2 with
        tape := (stopOnFailure (turn lexer).2).2.tape.beginToken })
    else
      ((turn lexer).1, (stopOnFailure (turn lexer).2).2)) := by
  unfold round
  change (if lexer.finished = true then _ else _ : Scan Buffer (Option Lexeme)) lexer = _
  rw [running, if_neg Bool.false_ne_true, run_bind, run_bind, run_ite]
  rfl

theorem unfolds_lexemeWithin :
    Loop.Unfolds (round : Scan Buffer (Option Lexeme)) lexemeWithin := by
  intro steps lexer
  cases finished : lexer.finished with
  | true =>
      rw [round_of_finished finished, lexemeWithin]
      change (if lexer.finished = true then _ else _ : Scan Buffer Lexeme) lexer = _
      rw [if_pos finished]
      rfl
  | false =>
      rw [lexemeWithin_succ finished, round_of_running finished]
      unfold goOn
      rw [run_bind, run_ite]
      split
      · rfl
      · cases (turn lexer).1 <;> rfl

end Scan

namespace Lexer

variable {contents : Bytes} {lexer : Lexer Buffer}

/-- A lexer over a buffer between two rounds. No refill has failed unless the input is over. -/
structure Ready (contents : Bytes) (lexer : Lexer Buffer) : Prop where
  /-- The buffer shows the contents. -/
  shows : lexer.tape.Shows contents
  /-- A failure ends the input. -/
  flowing : lexer.finished = false → lexer.tape.stalled = false
  /-- The bookkeeping is right. -/
  tidy : lexer.finished = false → (lexer.bare contents).Tidy

/-- What a round comes to: the end of the input after a fatal error, or what its turn comes to. -/
inductive RoundEnds (lexer : Lexer Buffer) : Option Lexeme × Lexer Buffer → Prop
  | stopped {after : Lexer Buffer} (finished : after.finished = true)
      (begun : after.tape.token = after.tape.cursor) : RoundEnds lexer (some .eof, after)
  | turned (running : lexer.finished = false)
      (flowing : (Scan.turn lexer).2.tape.stalled = false) : RoundEnds lexer (Scan.turn lexer)

/-- A turn over a buffer does what the turn of the bare lexer does. -/
theorem Ready.turn (ready : lexer.Ready contents) (running : lexer.finished = false)
    (flowing : (Scan.turn lexer).2.tape.stalled = false) :
    (Scan.turn lexer).1 = (lexer.bare contents).piece.lexeme ∧
      (Scan.turn lexer).2.bare contents =
        (lexer.bare contents).take (lexer.bare contents).piece := by
  have agrees := ((Scan.simulation_tracksBare.turn lexer ready.shows).agrees flowing).2
  rw [Scan.run_turn (ready.tidy running).token_le] at agrees
  exact ⟨(Prod.mk.inj agrees).1.symm, (Prod.mk.inj agrees).2.symm⟩

theorem Ready.round (ready : lexer.Ready contents) :
    (Scan.round lexer).2.tape.Shows contents ∧ RoundEnds lexer (Scan.round lexer) := by
  cases finished : lexer.finished with
  | true =>
      rw [Scan.round_of_finished finished]
      exact ⟨ready.shows.beginToken, .stopped finished rfl⟩
  | false =>
      have turn_shows := (Scan.simulation_tracksBare.turn lexer ready.shows).shows
      rw [Scan.round_of_running finished]
      cases stalled : (Scan.turn lexer).2.tape.stalled with
      | true =>
          have before_tells : Scan.Tells lexer.tape := fun before_stalled =>
            Bool.noConfusion (before_stalled.symm.trans (ready.flowing finished))
          have tells : Scan.Tells (Scan.turn lexer).2.tape :=
            (Scan.simulation_keeps Scan.outlasts_tells).turn lexer before_tells
          obtain ⟨after, stopped, finished⟩ := Scan.stopOnFailure_of_stalled tells stalled
          have after_shows := (Scan.simulation_tracksBare.stopOnFailure
            Scan.tracksBare_takeFailure (Scan.turn lexer).2 turn_shows).shows
          rw [stopped] at after_shows ⊢
          rw [if_pos rfl]
          exact ⟨after_shows.beginToken, .stopped finished rfl⟩
      | false =>
          rw [Scan.stopOnFailure_of_flowing turn_shows stalled, if_neg Bool.false_ne_true]
          exact ⟨turn_shows, .turned finished stalled⟩

theorem Ready.round_ready (ready : lexer.Ready contents) :
    (Scan.round lexer).2.Ready contents := by
  obtain ⟨shows, ends⟩ := ready.round
  generalize Scan.round lexer = outcome at shows ends ⊢
  cases ends with
  | stopped finished =>
      exact ⟨shows, fun running => Bool.noConfusion (finished.symm.trans running),
        fun running => Bool.noConfusion (finished.symm.trans running)⟩
  | turned running flowing =>
      refine ⟨shows, fun _ => flowing, fun _ => ?_⟩
      rw [(ready.turn running flowing).2]
      exact (ready.tidy running).take

/-- The bytes that a running lexer has ahead of it. -/
def togo (contents : Bytes) (lexer : Lexer Buffer) : Nat :=
  if lexer.finished then 0 else (lexer.bare contents).tape.ahead.length

/-- A round without a result takes a byte. -/
theorem Ready.togo_lt (ready : lexer.Ready contents) {next : Lexer Buffer}
    (goes_on : Scan.round lexer = (none, next)) : next.togo contents < lexer.togo contents := by
  have ends := ready.round.2
  rw [goes_on] at ends
  generalize outcome_eq : (none, next) = outcome at ends
  cases ends with
  | stopped => cases outcome_eq
  | turned running flowing =>
      obtain ⟨completed_eq, bare_eq⟩ := ready.turn running flowing
      have skips : (lexer.bare contents).piece.lexeme = none := by
        rw [← completed_eq, ← outcome_eq]
      have next_eq : next = (Scan.turn lexer).2 := congrArg Prod.snd outcome_eq
      have shorter := length_ahead_take_lt (goes_on_of_skips skips)
      rw [← bare_eq, ← next_eq] at shorter
      rw [togo, togo, running, if_neg Bool.false_ne_true]
      split
      · exact Nat.zero_lt_of_lt shorter
      · exact shorter

/-- There are always rounds enough. -/
theorem Ready.ends_lexeme (ready : lexer.Ready contents) :
    Loop.Ends Scan.round lexer (Scan.lexeme lexer) := by
  have shrinks (state next : Lexer Buffer) (state_ready : state.Ready contents)
      (goes_on : Scan.round state = (none, next)) :
      next.Ready contents ∧ next.togo contents < state.togo contents := by
    have next_ready := state_ready.round_ready
    rw [goes_on] at next_ready
    exact ⟨next_ready, state_ready.togo_lt goes_on⟩
  have enough : lexer.togo contents < Tape.remaining lexer.tape + 1 := by
    cases finished : lexer.finished with
    | true =>
        rw [togo, finished, if_pos rfl]
        exact Nat.succ_pos _
    | false =>
        rw [togo, finished, if_neg Bool.false_ne_true, Cursor.length_ahead]
        exact Nat.lt_succ_of_le
          (Nat.le_of_eq (ready.shows.remaining_eq (ready.flowing finished)).symm)
  exact Scan.unfolds_lexemeWithin.ends shrinks ready enough

end Lexer

end WasmText
