import Mathlib
import WasmText.Lexer.Session
import WasmText.Proofs.Buffer.Operations
import WasmText.Proofs.Lexer.Bare

/-!
# Sessions

Source lines may be looked up between the calls of a lexer, other collections of errors begun and
capacities chosen. Nothing of this shows in what is read. The source is put back where it was after
every search, and so the next refill goes on as if there had been none.
-/

namespace WasmText

namespace Session

/-- What can be done with a session. -/
inductive Action where
  /-- Reads a token. -/
  | next
  /-- Looks up the source line of a location. -/
  | sourceLine (location : Location) (width : Nat)
  /-- Chooses the capacity that the buffer first allocates. -/
  | configure (size : Nat)
  /-- Begins a new collection, of diagnostics with source lines of another width. -/
  | restart (lineWidth : Nat)

namespace Action

/-- The number of tokens that an action reads. -/
def calls : Action → Nat
  | next => 1
  | sourceLine _ _ | configure _ | restart _ => 0

/-- Performs an action. A token that is read is seen without the source lines of the errors before
it, and with the line that the lexer is on behind it. -/
def perform : Action → Session → List (Reading × Nat) × Session
  | next, session =>
    let (reading, session) := session.next
    ([(reading.bare, session.lexer.line)], session)
  | sourceLine location width, session => ([], (session.sourceLine location width).2)
  | configure size, session => ([], session.configure size)
  | restart lineWidth, session => ([], session.restart lineWidth)

/-- Performs actions one after another. -/
def performAll : List Action → Session → List (Reading × Nat) × Session
  | [], session => ([], session)
  | action :: actions, session =>
    let (seen, session) := action.perform session
    let (further, session) := performAll actions session
    (seen ++ further, session)

end Action

end Session

namespace Lexer

/-- What is seen of a call after so many others. -/
def sight {τ : Type} [Tape τ] (lexer : Lexer τ) (calls : Nat) : Reading × Nat :=
  (lexer.reading calls, (lexer.after (calls + 1)).line)

variable {contents : Bytes} {lexer : Lexer Buffer}

/-- The calls of a lexer over a buffer are those of the bare lexer. -/
theorem sight_bare (shows : lexer.tape.Shows contents) {calls : Nat}
    (flowing : (lexer.after (calls + 1)).tape.stalled = false) :
    (lexer.bare contents).sight calls =
      ((lexer.reading calls).bare, (lexer.after (calls + 1)).line) := by
  obtain ⟨middle_shows, middle_agrees⟩ := followsBare_after shows calls
  obtain ⟨middle_flowing, next_eq⟩ := (followsBare_next middle_shows).agrees flowing
  have middle_eq : (lexer.bare contents).after calls = (lexer.after calls).bare contents :=
    (Prod.mk.inj (middle_agrees middle_flowing).2).2
  rw [sight, reading, after, middle_eq, next_eq]
  rfl

end Lexer

namespace Session

variable {contents : Bytes} {session : Session}

/-- Actions on a session make so many calls of a lexer over a cursor, which has made others before,
unless a refill has failed. -/
structure Follows (contents : Bytes) (start : Lexer Cursor) (calls count : Nat) (before : Session)
    (result : List (Reading × Nat) × Session) : Prop where
  /-- The buffer goes on showing the contents. -/
  shows : result.2.lexer.tape.Shows contents
  /-- Without a failure there was none before. -/
  flowing : result.2.lexer.tape.stalled = false → before.lexer.tape.stalled = false
  /-- Without a failure the same is seen, and the lexers are at the same place. -/
  agrees : result.2.lexer.tape.stalled = false → before.lexer.bare contents = start.after calls →
    result.1 = (List.range' calls count).map start.sight ∧
      result.2.lexer.bare contents = start.after (calls + count)

theorem follows_perform (start : Lexer Cursor) (calls : Nat) (action : Action)
    (shows : session.lexer.tape.Shows contents) :
    Follows contents start calls action.calls session (action.perform session) := by
  cases action with
  | next =>
      obtain ⟨after_shows, agrees⟩ := Lexer.followsBare_next shows
      refine ⟨after_shows, fun flowing => (agrees flowing).1, fun flowing here => ?_⟩
      have next_eq := (agrees flowing).2
      rw [here] at next_eq
      have reading_eq : start.reading calls = session.lexer.next.1.bare :=
        congrArg Prod.fst next_eq
      have after_eq : start.after (calls + 1) = session.lexer.next.2.bare contents :=
        congrArg Prod.snd next_eq
      refine ⟨?_, after_eq.symm⟩
      change _ = [start.sight calls]
      rw [Lexer.sight, reading_eq, after_eq]
      rfl
  | sourceLine location width =>
      obtain ⟨outcome, source, undisturbed, looked_up⟩ :=
        session.lexer.sourceLine_undisturbed location width
      have after_eq : (Action.perform (.sourceLine location width) session).2.lexer =
          { session.lexer with tape := { session.lexer.tape with source } } :=
        congrArg Prod.snd looked_up
      refine ⟨?_, fun flowing => ?_, fun _ here => ⟨rfl, ?_⟩⟩
      · rw [after_eq]
        exact shows.undisturbed undisturbed
      · rw [after_eq] at flowing
        exact flowing
      · rw [after_eq]
        exact here
  | configure size =>
      obtain ⟨after_shows, agrees⟩ := shows.setInitialCapacity size
      refine ⟨after_shows, fun flowing => (agrees flowing).1, fun flowing here => ⟨rfl, ?_⟩⟩
      have place_eq := congrArg Prod.snd (agrees flowing).2
      rw [Action.calls, Nat.add_zero, ← here]
      exact congrArg (fun place => { session.lexer.bare contents with tape := place }) place_eq.symm
  | restart lineWidth => exact ⟨shows, id, fun _ here => ⟨rfl, here⟩⟩

theorem follows_performAll (start : Lexer Cursor) (calls : Nat) (actions : List Action)
    (shows : session.lexer.tape.Shows contents) :
    Follows contents start calls (actions.map Action.calls).sum session
      (Action.performAll actions session) := by
  induction actions generalizing session calls with
  | nil => exact ⟨shows, id, fun _ here => ⟨rfl, here⟩⟩
  | cons action actions induction =>
      have first := follows_perform start calls action shows
      have further := induction (calls + action.calls) first.shows
      refine ⟨further.shows, first.flowing ∘ further.flowing, fun flowing here => ?_⟩
      obtain ⟨first_seen, middle_eq⟩ := first.agrees (further.flowing flowing) here
      obtain ⟨further_seen, last_eq⟩ := further.agrees flowing middle_eq
      rw [List.map_cons, List.sum_cons, ← Nat.add_assoc]
      refine ⟨?_, last_eq⟩
      change (action.perform session).1 ++
        (Action.performAll actions (action.perform session).2).1 = _
      rw [first_seen, further_seen, ← List.map_append, List.range'_append_1]

/-- Diagnostics do not disturb the scan. Whatever lines are looked up, capacities chosen and
collections begun between the calls of a lexer, and whatever width its source lines are to have,
it reads the same tokens, with the same errors before them, and is on the same lines behind them,
as long as no refill fails. A lookup leaves the next read of the source where it was, whatever the
source is and whatever becomes of the lookup. -/
theorem readings_undisturbed {source : Source} (reads : source.contents = contents)
    (unread : source.position = 0) (filename : String)
    (lineWidth plainWidth size bound : Nat) (actions : List Action)
    (flowing : (Action.performAll actions (ofLexer (Lexer.opened filename lineWidth source size
      bound))).2.lexer.tape.stalled = false)
    (plain_flowing : ((Lexer.opened filename plainWidth source size bound).after
      (actions.map Action.calls).sum).tape.stalled = false) :
    (Action.performAll actions (ofLexer (Lexer.opened filename lineWidth source size bound))).1 =
        (List.range (actions.map Action.calls).sum).map (fun call =>
          (((Lexer.opened filename plainWidth source size bound).reading call).bare,
            ((Lexer.opened filename plainWidth source size bound).after (call + 1)).line)) ∧
      ∀ (lexer : Lexer Buffer) (location : Location) (width : Nat),
        (lexer.sourceLine location width).2.tape.source.position = lexer.tape.source.position := by
  have shows := Buffer.shows_opened reads unread size bound
  constructor
  · have session_shows :
        (ofLexer (Lexer.opened filename lineWidth source size bound)).lexer.tape.Shows contents :=
      shows
    have follows := follows_performAll (Lexer.plain filename 0 contents) 0 actions session_shows
    rw [(follows.agrees flowing (Lexer.bare_opened filename lineWidth source size bound)).1,
      List.range_eq_range']
    refine List.map_congr_left fun call present => ?_
    have below : call + 1 ≤ (actions.map Action.calls).sum := by
      rw [List.mem_range'_1] at present
      omega
    have plain_shows :
        (Lexer.opened filename plainWidth source size bound).tape.Shows contents :=
      shows
    have call_flowing := Lexer.flowing_of_le plain_shows below plain_flowing
    rw [← Lexer.sight_bare plain_shows call_flowing, Lexer.bare_opened]
  · intro lexer location width
    obtain ⟨outcome, after, undisturbed, looked_up⟩ := lexer.sourceLine_undisturbed location width
    rw [looked_up]
    exact undisturbed.position

/-- A file with a byte in error, of which the line is looked up before and behind it, and a line
that does not exist, from a window of one byte. -/
theorem readings_undisturbed_file :
    let file : Source := .file (.regular "a.wast" "(\n,$a".toUTF8.data)
    let actions : List Action := [.sourceLine ⟨"a.wast", 2, 1, 2⟩ 8, .next,
      .sourceLine ⟨"a.wast", 7, 1, 2⟩ 0, .restart 80, .configure 9, .next]
    (Action.performAll actions (ofLexer (Lexer.opened "a.wast" 0 file 1 4096))).1 =
      [0, 1].map fun call =>
        (((Lexer.opened "a.wast" 40 file 1 4096).reading call).bare,
          ((Lexer.opened "a.wast" 40 file 1 4096).after (call + 1)).line) :=
  (readings_undisturbed rfl rfl "a.wast" 0 40 1 4096 _ (by decide +kernel) (by decide +kernel)).1

end Session

end WasmText
