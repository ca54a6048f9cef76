import WasmText.Proofs.Lexer.Refinement
import WasmText.Proofs.Source.Restoring

/-!
# Lexers without source lines

Without the source lines of its diagnostics a lexer over a buffer does what the lexer over a cursor
does, whatever the source is and whatever becomes of the searches for source lines. That holds up to
the first refill that fails.
-/

namespace WasmText

/-- The diagnostic without its source line. -/
def Diagnostic.bare (diagnostic : Diagnostic) : Diagnostic :=
  { diagnostic with sourceLine := none }

/-- The reading without the source lines of its diagnostics. -/
def Reading.bare (reading : Reading) : Reading :=
  { reading with diagnostics := reading.diagnostics.map Diagnostic.bare }

namespace Lexer

/-- The lexer over a cursor that is at the same place and shows no source lines. -/
def bare (contents : Bytes) (lexer : Lexer Buffer) : Lexer Cursor :=
  { lexer with
    tape := lexer.tape.place contents
    lineWidth := 0
    reported := lexer.reported.map Diagnostic.bare }

/-- A lexer over a buffer comes to the result of the bare lexer at its place, unless a refill has
failed. -/
structure FollowsBare {α : Type} (contents : Bytes) (before : Lexer Buffer)
    (result : α × Lexer Buffer) (plain : α × Lexer Cursor) : Prop where
  /-- The buffer goes on showing the contents. -/
  shows : result.2.tape.Shows contents
  /-- Without a failure the answers agree and so do the places. -/
  agrees : result.2.tape.stalled = false →
    before.tape.stalled = false ∧ plain = (result.1, result.2.bare contents)

end Lexer

namespace Scan

variable {α β : Type} {contents : Bytes}

/-- A scan over buffers follows a scan over cursors but for source lines, wherever it begins. -/
def TracksBare (contents : Bytes) (scan : Scan Buffer α) (plain : Scan Cursor α) : Prop :=
  ∀ lexer : Lexer Buffer, lexer.tape.Shows contents →
    lexer.FollowsBare contents (scan lexer) (plain (lexer.bare contents))

theorem TracksBare.pure (answer : α) :
    TracksBare contents (pure answer : Scan Buffer α) (pure answer) :=
  fun _ shows => ⟨shows, fun flowing => ⟨flowing, rfl⟩⟩

theorem TracksBare.bind {scan : Scan Buffer α} {plain : Scan Cursor α} {next : α → Scan Buffer β}
    {plain_next : α → Scan Cursor β} (first : TracksBare contents scan plain)
    (second : ∀ answer, TracksBare contents (next answer) (plain_next answer)) :
    TracksBare contents (scan >>= next) (plain >>= plain_next) := by
  intro lexer shows
  obtain ⟨middle_shows, middle_agrees⟩ := first lexer shows
  obtain ⟨after_shows, after_agrees⟩ := second (scan lexer).1 (scan lexer).2 middle_shows
  refine ⟨after_shows, fun flowing => ?_⟩
  obtain ⟨middle_flowing, after_eq⟩ := after_agrees flowing
  obtain ⟨before_flowing, middle_eq⟩ := middle_agrees middle_flowing
  refine ⟨before_flowing, ?_⟩
  rw [run_bind, middle_eq]
  exact after_eq

/-- An operation of the tape that follows the cursor is a scan that does. -/
theorem tracksBare_ask {operation : Buffer → α × Buffer} {plain : Cursor → α × Cursor}
    (follows : ∀ buffer : Buffer, buffer.Shows contents →
      Buffer.Follows contents buffer (operation buffer) (plain (buffer.place contents))) :
    TracksBare contents (ask operation) (ask plain) := by
  intro lexer shows
  obtain ⟨after_shows, agrees⟩ := follows lexer.tape shows
  refine ⟨after_shows, fun flowing => ?_⟩
  obtain ⟨before_flowing, plain_eq⟩ := agrees flowing
  refine ⟨before_flowing, ?_⟩
  have asked : ask plain (lexer.bare contents) =
      ((plain (lexer.tape.place contents)).1,
        { lexer.bare contents with tape := (plain (lexer.tape.place contents)).2 }) := rfl
  rw [asked, plain_eq]
  rfl

theorem tracksBare_move {operation : Buffer → Buffer} {plain : Cursor → Cursor}
    (follows : ∀ buffer : Buffer, buffer.Shows contents →
      Buffer.Follows contents buffer ((), operation buffer) ((), plain (buffer.place contents))) :
    TracksBare contents (move operation) (move plain) :=
  @tracksBare_ask Unit contents (fun buffer => ((), operation buffer))
    (fun cursor => ((), plain cursor)) follows

theorem tracksBare_view {operation : Buffer → α} {plain : Cursor → α}
    (same : ∀ buffer : Buffer, buffer.Shows contents → buffer.stalled = false →
      operation buffer = plain (buffer.place contents)) :
    TracksBare contents (view operation) (view plain) := by
  intro lexer shows
  refine ⟨shows, fun flowing => ⟨flowing, ?_⟩⟩
  exact congrArg (·, lexer.bare contents) (same lexer.tape shows flowing).symm

/-- A change of what the lexer remembers beside its tape. -/
theorem tracksBare_modify {change : Lexer Buffer → Lexer Buffer}
    {plain_change : Lexer Cursor → Lexer Cursor}
    (tape_eq : ∀ lexer, (change lexer).tape = lexer.tape)
    (same : ∀ lexer, plain_change (lexer.bare contents) = (change lexer).bare contents) :
    TracksBare contents (modify change) (modify plain_change) := by
  intro lexer shows
  refine ⟨(tape_eq lexer).symm ▸ shows, fun flowing => ⟨(tape_eq lexer) ▸ flowing, ?_⟩⟩
  exact congrArg ((), ·) (same lexer)

end Scan

namespace Buffer

variable {contents : Bytes} {buffer : Buffer}

/-- A source that is not disturbed can be put in the place of the one underneath. -/
theorem Shows.undisturbed (shows : buffer.Shows contents) {source : Source}
    (undisturbed : Search.Undisturbed buffer.source source) :
    Shows contents { buffer with source } :=
  { shows with
    contents_eq := undisturbed.contents.trans shows.contents_eq
    position_eq := fun flowing => undisturbed.position.trans (shows.position_eq flowing) }

end Buffer

namespace Lexer

/-- A source line is looked up without a change to anything but the source. -/
theorem sourceLine_undisturbed (location : Location) (width : Nat) (lexer : Lexer Buffer) :
    ∃ outcome source, Search.Undisturbed lexer.tape.source source ∧
      lexer.sourceLine location width =
        (outcome, { lexer with tape := { lexer.tape with source } }) :=
  ⟨_, _, SourceLine.harmless_search lexer.anchor location width lexer.tape.source, rfl⟩

end Lexer

namespace Scan

variable {contents : Bytes}

theorem lineFor_undisturbed (location : Location) (lexer : Lexer Buffer) :
    ∃ shown source, Search.Undisturbed lexer.tape.source source ∧
      lineFor location lexer = (shown, { lexer with tape := { lexer.tape with source } }) := by
  change ∃ shown source, _ ∧ (if lexer.lineWidth = 0 then pure none else do
    let outcome ← fun lexer' => lexer'.sourceLine location lexer.lineWidth
    pure outcome.toOption : Scan Buffer (Option SourceLine)) lexer = _
  split
  · exact ⟨none, lexer.tape.source, ⟨rfl, rfl⟩, rfl⟩
  · obtain ⟨outcome, source, undisturbed, looked_up⟩ :=
      lexer.sourceLine_undisturbed location lexer.lineWidth
    refine ⟨outcome.toOption, source, undisturbed, ?_⟩
    rw [run_bind, looked_up]
    rfl

/-- A report looks the source line up and then changes nothing but the diagnostics. -/
theorem report_eq (error : LexError) (lexer : Lexer Buffer) :
    let location := lexer.location lexer.tape.marker lexer.tape.cursor
    let (sourceLine, after) := lineFor location lexer
    report error lexer = ((), { after with
      reported := after.reported.push { location, message := error.message, sourceLine }
      finished := after.finished || error.isFatal }) :=
  rfl

theorem tracksBare_report (error : LexError) :
    TracksBare contents (report error) (report error) := by
  intro lexer shows
  obtain ⟨shown, source, undisturbed, looked_up⟩ :=
    lineFor_undisturbed (lexer.location lexer.tape.marker lexer.tape.cursor) lexer
  have reported := report_eq error lexer
  simp only [looked_up] at reported
  rw [reported, run_report]
  refine ⟨shows.undisturbed undisturbed, fun flowing => ⟨flowing, ?_⟩⟩
  simp only [Lexer.bare, Array.map_push]
  rfl

theorem simulation_tracksBare : Simulation fun _ => TracksBare contents where
  pure := TracksBare.pure
  bind := TracksBare.bind
  get := fun next lexer shows =>
    next lexer (lexer.bare contents) ⟨rfl, rfl, rfl⟩ lexer shows
  beginToken :=
    tracksBare_move fun _ shows => ⟨shows.beginToken, fun flowing => ⟨flowing, rfl⟩⟩
  mark := tracksBare_move fun _ shows => ⟨shows.mark, fun flowing => ⟨flowing, rfl⟩⟩
  peek := fun ahead => tracksBare_ask fun _ shows => shows.peek ahead
  isEndAt := fun ahead => tracksBare_ask fun _ shows => shows.isEndAt ahead
  advance := fun count => tracksBare_move fun _ shows => shows.advance count
  eatWhile := fun accepts => tracksBare_move fun _ shows => shows.eatWhile accepts
  skipUntil := fun wanted => tracksBare_ask fun _ shows => shows.skipUntil wanted
  tokenBytes := tracksBare_view fun _ shows _ => shows.tokenBytes_eq
  markedBytes := tracksBare_view fun _ shows _ => shows.markedBytes_eq
  remaining := tracksBare_view fun _ shows flowing => shows.remaining_eq flowing
  startLine := tracksBare_modify (fun _ => rfl) fun _ => rfl
  nest := fun _ => tracksBare_modify (fun _ => rfl) fun _ => rfl
  enter := fun _ => tracksBare_modify (fun _ => rfl) fun _ => rfl
  report := tracksBare_report

theorem tracksBare_takeFailure :
    TracksBare contents (ask Tape.takeFailure) (ask Tape.takeFailure) := by
  refine tracksBare_ask fun buffer shows => ?_
  refine ⟨{ shows with failure_eq := fun _ => rfl }, fun flowing => ⟨flowing, ?_⟩⟩
  exact congrArg (·, buffer.place contents) (shows.failure_eq flowing).symm

theorem tracksBare_lexeme : TracksBare contents lexeme lexeme :=
  simulation_tracksBare.lexeme tracksBare_takeFailure

end Scan

namespace Lexer

variable {contents : Bytes} {lexer : Lexer Buffer}

theorem bare_silent (lexer : Lexer Buffer) :
    ({ lexer with reported := #[] } : Lexer Buffer).bare contents =
      { lexer.bare contents with reported := #[] } := by
  unfold bare
  rw [Array.map_empty]

/-- A call over a buffer and the call of the bare lexer. -/
theorem followsBare_next (shows : lexer.tape.Shows contents) :
    FollowsBare contents lexer (lexer.next.1.bare, lexer.next.2) (lexer.bare contents).next := by
  obtain ⟨after_shows, agrees⟩ := Scan.tracksBare_lexeme lexer shows
  refine ⟨after_shows, fun flowing => ?_⟩
  obtain ⟨before_flowing, plain_eq⟩ := agrees flowing
  refine ⟨before_flowing, ?_⟩
  have scanned : Scan.lexeme.run (lexer.bare contents) =
    ((Scan.lexeme.run lexer).1, (Scan.lexeme.run lexer).2.bare contents) := plain_eq
  unfold Lexer.next
  rw [scanned]
  exact congrArg (Prod.mk _) (bare_silent _).symm

theorem views_bare :
    Views (fun lexer => lexer.tape.Shows contents) (bare contents) Reading.bare where
  keeps := fun shows => (followsBare_next shows).shows
  agrees := fun shows => (followsBare_next shows).agrees
  isEof_eq := fun _ => rfl

theorem followsBare_after (shows : lexer.tape.Shows contents) (calls : Nat) :
    FollowsBare contents lexer ((), lexer.after calls) ((), (lexer.bare contents).after calls) := by
  obtain ⟨after_shows, agrees⟩ := views_bare.after shows calls
  refine ⟨after_shows, fun flowing => ?_⟩
  obtain ⟨before_flowing, after_eq⟩ := agrees flowing
  exact ⟨before_flowing, congrArg (Prod.mk ()) after_eq⟩

/-- All that a lexer over a buffer reads and all that the bare lexer reads. -/
theorem followsBare_readings (shows : lexer.tape.Shows contents) :
    FollowsBare contents lexer (lexer.readings.1.map Reading.bare, lexer.readings.2)
      (lexer.bare contents).readings := by
  obtain ⟨last_shows, agrees⟩ :=
    views_bare.readingsWithin shows (Tape.remaining lexer.tape + 1) #[]
  refine ⟨last_shows, fun flowing => ?_⟩
  obtain ⟨before_flowing, last_eq⟩ := agrees flowing
  refine ⟨before_flowing, ?_⟩
  have remaining_eq : Tape.remaining (lexer.bare contents).tape = Tape.remaining lexer.tape :=
    (shows.remaining_eq before_flowing).symm
  rw [Array.map_empty] at last_eq
  rw [Lexer.readings, remaining_eq]
  exact last_eq

/-- A refill that has failed is never made up for. -/
theorem flowing_of_le (shows : lexer.tape.Shows contents) {first last : Nat} (le : first ≤ last)
    (flowing : (lexer.after last).tape.stalled = false) :
    (lexer.after first).tape.stalled = false := by
  induction le with
  | refl => exact flowing
  | step _ induction =>
      exact induction ((followsBare_next (followsBare_after shows _).shows).agrees flowing).1

/-- A lexer is bare from the start, whatever width its source lines are to have. -/
theorem bare_opened (filename : String) (lineWidth : Nat) (source : Source) (size bound : Nat) :
    (opened filename lineWidth source size bound).bare contents = plain filename 0 contents := by
  unfold bare opened ofTape
  rw [Array.map_empty]
  rfl

theorem readings_eq_bare {source : Source} (opens : source.Opens contents)
    (filename : String) (lineWidth size bound : Nat)
    (flowing : (opened filename lineWidth source size bound).readings.2.tape.stalled = false) :
    (plain filename 0 contents).readings.1.toList =
      (opened filename lineWidth source size bound).readings.1.toList.map Reading.bare := by
  have shows : (opened filename lineWidth source size bound).tape.Shows contents :=
    (sound_opened opens filename lineWidth size bound).shows
  have bare_eq : (opened filename lineWidth source size bound).bare contents =
      plain filename 0 contents :=
    bare_opened filename lineWidth source size bound
  generalize opened filename lineWidth source size bound = lexer at flowing shows bare_eq ⊢
  rw [← bare_eq, ((followsBare_readings shows).agrees flowing).2, Array.toList_map]

end Lexer

end WasmText
