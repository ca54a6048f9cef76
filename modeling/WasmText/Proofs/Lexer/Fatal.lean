import WasmText.Proofs.Lexer.Ending
import WasmText.Proofs.Lexer.Order

/-!
# Fatal errors

After a fatal error nothing is scanned any more, so nothing but the last errors can be fatal. That is
one error as long as no refill fails. A refill that fails looks like the end of the input to the step
that needs it, which may find a string or a comment to be cut off there and say so; the failure is
found after the step, and it is the last error then.
-/

namespace WasmText

/-- Whether an error is that a refill has failed. -/
def LexError.isRefusal : LexError → Bool
  | bufferAllocation | sourceRead _ => true
  | unexpectedChar | unexpectedToken _ | newlineInString | badEscape _ | illegalCharInString
  | unexpectedEofInString | unterminatedBlockComment => false

namespace Lexer

/-- What a lexer reports between two states. -/
structure Reported (errors : List LexError) (before after : Lexer Buffer) : Prop where
  /-- The reports are added to those that there are. -/
  messages : (after.reported.toList.map Diagnostic.message) =
    before.reported.toList.map Diagnostic.message ++ errors.map LexError.message
  /-- A fatal error ends the input. -/
  finished : after.finished = (before.finished || errors.any LexError.isFatal)

namespace Reported

variable {before middle after : Lexer Buffer} {errors further : List LexError}

theorem nil (reported : after.reported = before.reported)
    (finished : after.finished = before.finished) : Reported [] before after := by
  refine ⟨?_, ?_⟩
  · rw [reported, List.map_nil, List.append_nil]
  · rw [finished, List.any_nil, Bool.or_false]

theorem trans (first : Reported errors before middle) (second : Reported further middle after) :
    Reported (errors ++ further) before after := by
  refine ⟨?_, ?_⟩
  · rw [second.messages, first.messages, List.map_append, List.append_assoc]
  · rw [second.finished, first.finished, List.any_append, Bool.or_assoc]

end Reported

end Lexer

namespace Scan

variable {α β : Type} {scan : Scan Buffer α} {next : α → Scan Buffer β} {most : Nat}
  {lexer : Lexer Buffer}

theorem reported_report (error : LexError) (lexer : Lexer Buffer) :
    Lexer.Reported [error] lexer (report error lexer).2 := by
  obtain ⟨shown, source, -, looked_up⟩ :=
    lineFor_undisturbed (lexer.location lexer.tape.marker lexer.tape.cursor) lexer
  have reported := report_eq error lexer
  simp only [looked_up] at reported
  rw [reported]
  refine ⟨?_, ?_⟩
  · rw [Array.toList_push, List.map_append]
    rfl
  · rw [List.any_cons, List.any_nil, Bool.or_false]

/-! ### Counting reports -/

/-- A scan makes so many reports at most, and none of a failed refill. -/
def Blames (most : Nat) (scan : Scan Buffer α) : Prop :=
  ∀ lexer : Lexer Buffer, ∃ errors : List LexError, errors.length ≤ most ∧
    (∀ error ∈ errors, error.isRefusal = false) ∧ lexer.Reported errors (scan lexer).2

theorem Blames.bind {further : Nat} (first : Blames most scan)
    (second : ∀ answer, Blames further (next answer)) : Blames (most + further) (scan >>= next) := by
  intro lexer
  obtain ⟨errors, length_le, own, reported⟩ := first lexer
  obtain ⟨others, others_le, others_own, others_reported⟩ := second (scan lexer).1 (scan lexer).2
  refine ⟨errors ++ others, ?_, ?_, reported.trans others_reported⟩
  · rw [List.length_append]
    exact Nat.add_le_add length_le others_le
  · exact fun error present => (List.mem_append.mp present).elim (own error) (others_own error)

/-- Nothing is reported at first. -/
theorem Blames.after (first : Blames 0 scan) (second : ∀ answer, Blames most (next answer)) :
    Blames most (scan >>= next) :=
  Nat.zero_add most ▸ first.bind second

/-- Nothing is reported in the end. -/
theorem Blames.before (first : Blames most scan) (second : ∀ answer, Blames 0 (next answer)) :
    Blames most (scan >>= next) :=
  first.bind second

theorem Blames.ite {condition : Prop} [Decidable condition] {yes no : Scan Buffer α}
    (if_yes : Blames most yes) (if_no : Blames most no) :
    Blames most (if condition then yes else no) := by
  split
  · exact if_yes
  · exact if_no

theorem blames_of_same (reported : ∀ lexer, (scan lexer).2.reported = lexer.reported)
    (finished : ∀ lexer, (scan lexer).2.finished = lexer.finished) : Blames most scan :=
  fun lexer => ⟨[], Nat.zero_le _, fun _ absent => absurd absent List.not_mem_nil,
    .nil (reported lexer) (finished lexer)⟩

theorem blames_pure (answer : α) : Blames most (pure answer) :=
  blames_of_same (fun _ => rfl) fun _ => rfl

theorem blames_ask (operation : Buffer → α × Buffer) : Blames most (ask operation) :=
  blames_of_same (fun _ => rfl) fun _ => rfl

theorem blames_move (operation : Buffer → Buffer) : Blames most (move operation) :=
  blames_of_same (fun _ => rfl) fun _ => rfl

theorem blames_view (operation : Buffer → α) : Blames most (view operation) :=
  blames_of_same (fun _ => rfl) fun _ => rfl

theorem blames_get {next : Lexer Buffer → Scan Buffer α}
    (blames : ∀ lexer, Blames most (next lexer)) : Blames most (get >>= next) :=
  fun lexer => blames lexer lexer

theorem blames_startLine : Blames most (startLine : Scan Buffer Unit) :=
  blames_of_same (fun _ => rfl) fun _ => rfl

theorem blames_nest (change : Nat → Nat) : Blames most (nest change : Scan Buffer Unit) :=
  blames_of_same (fun _ => rfl) fun _ => rfl

/-- A report, and nothing further to be reported. -/
theorem blames_report {error : LexError} {next : Unit → Scan Buffer β}
    (own : error.isRefusal = false) (quiet : ∀ answer, Blames 0 (next answer)) :
    Blames 1 (report error >>= next) :=
  have reports : Blames 1 (report error) := fun lexer =>
    ⟨[error], Nat.le_refl 1, List.forall_mem_singleton.mpr own, reported_report error lexer⟩
  reports.before quiet

/-! ### Steps -/

theorem blames_eof : Blames most (eof : Scan Buffer Lexeme) :=
  (blames_move _).after fun _ => blames_pure _

theorem blames_single (kind : TokenKind) : Blames most (single kind : Scan Buffer Step) :=
  (blames_move _).after fun _ => blames_pure _

theorem blames_closeText : Blames most (closeText : Scan Buffer Step) :=
  (blames_move _).after fun _ => .after (blames_view _) fun _ => blames_pure _

theorem blames_escapeLength : Blames most (escapeLength : Scan Buffer Nat) := by
  refine (blames_ask _).after fun first => .ite (blames_pure _) (.ite ?_ (blames_pure _))
  exact (blames_ask _).after fun second => blames_pure _

theorem blames_textWithin (escapes : Nat) :
    Blames most (textWithin escapes : Scan Buffer Step) := by
  induction escapes with
  | zero => exact blames_pure _
  | succ escapes induction =>
      refine (blames_move _).after fun _ => .after (blames_ask _) fun byte => ?_
      refine .ite blames_closeText (.ite ?_ (blames_pure _))
      refine blames_escapeLength.after fun length => .ite (blames_pure _) ?_
      exact (blames_move _).after fun _ => induction

theorem blames_text : Blames most (text : Scan Buffer Step) :=
  (blames_move _).after fun _ => .after (blames_view _) fun _ => blames_textWithin _

/-- A step over bytes that are reported. -/
theorem blames_reporting {error : LexError} (own : error.isRefusal = false) (count : Nat)
    (step : Step) :
    Blames 1 (do advance count; report error; return step : Scan Buffer Step) :=
  (blames_move _).after fun _ => blames_report own fun _ => blames_pure step

theorem blames_atom : Blames 1 (atom : Scan Buffer Step) := by
  refine (blames_move _).after fun _ => .after (blames_view _) fun bytes => ?_
  split
  · exact blames_pure _
  · exact blames_report (by rfl) fun _ => blames_pure _

theorem blames_normal : Blames 1 (normal : Scan Buffer Step) := by
  have stray : Blames 1 (unexpectedChar : Scan Buffer Step) := blames_reporting rfl _ _
  refine (blames_ask _).after fun byte => ?_
  refine .ite ?_ (.ite ?_ (.ite ?_ (.ite ?_ (.ite ?_ (.ite ?_ (.ite ?_ (.ite ?_ ?_)))))))
  · exact (blames_ask _).after fun _ => .ite (blames_pure _) stray
  · refine (blames_ask _).after fun _ => .ite ?_ (blames_single _)
    exact (blames_move _).after fun _ => (blames_nest _).after fun _ => blames_pure _
  · exact blames_single _
  · refine (blames_ask _).after fun _ => .ite ?_ stray
    exact (blames_move _).after fun _ => blames_pure _
  · exact blames_text
  · exact (blames_move _).after fun _ => blames_pure _
  · exact (blames_move _).after fun _ => blames_startLine.after fun _ => blames_pure _
  · exact blames_atom
  · exact stray

theorem blames_badTextEscape : Blames 1 (badTextEscape : Scan Buffer Step) := by
  have lone : Blames 1 (badTextEscape.lone : Scan Buffer Step) := blames_reporting rfl _ _
  refine blames_escapeLength.after fun length => .ite ?_ ?_
  · refine (blames_ask _).after fun _ => .ite lone ?_
    refine (blames_ask _).after fun _ => .ite lone ?_
    refine (blames_move _).after fun _ => (blames_view _).after fun _ => ?_
    exact blames_report (by rfl) fun _ => blames_pure _
  · exact (blames_move _).after fun _ => blames_pure _

theorem blames_badText : Blames 1 (badText : Scan Buffer Step) := by
  have illegal : Blames 1 (badText.illegalChar : Scan Buffer Step) := blames_reporting rfl _ _
  refine (blames_ask _).after fun byte => ?_
  refine .ite ?_ (.ite blames_closeText (.ite ?_ (.ite blames_badTextEscape (.ite ?_ illegal))))
  · refine (blames_ask _).after fun _ => .ite ?_ illegal
    exact blames_report (by rfl) fun _ => blames_eof.after fun _ => blames_pure _
  · refine (blames_move _).after fun _ => blames_report (by rfl) fun _ => ?_
    exact blames_startLine.after fun _ => blames_pure _
  · exact (blames_move _).after fun _ => blames_pure _

theorem blames_lineComment : Blames most (lineComment : Scan Buffer Step) := by
  refine (blames_ask _).after fun found => ?_
  cases found with
  | none => exact blames_eof.after fun _ => blames_pure _
  | some byte => exact (blames_move _).after fun _ => blames_startLine.after fun _ => blames_pure _

theorem blames_blockComment : Blames 1 (blockComment : Scan Buffer Step) := by
  refine (blames_ask _).after fun found => ?_
  cases found with
  | none => exact blames_report (by rfl) fun _ => blames_eof.after fun _ => blames_pure _
  | some byte =>
      refine .ite ?_ (.ite ?_ ?_)
      · exact (blames_move _).after fun _ => blames_startLine.after fun _ => blames_pure _
      · refine (blames_ask _).after fun _ => .ite ?_ ?_
        · exact (blames_move _).after fun _ => (blames_nest _).after fun _ => blames_pure _
        · exact (blames_move _).after fun _ => blames_pure _
      · refine (blames_ask _).after fun _ => .ite ?_ ?_
        · refine (blames_move _).after fun _ => (blames_nest _).after fun _ => ?_
          exact blames_get fun _ => blames_pure _
        · exact (blames_move _).after fun _ => blames_pure _

/-- A turn reports one error at most. -/
theorem blames_turn : Blames 1 (turn : Scan Buffer (Option Lexeme)) := by
  have begun : Blames 0 (beginStep : Scan Buffer Unit) :=
    blames_get fun lexer => .ite ((blames_move _).after fun _ => blames_move _) (blames_move _)
  have taken : Blames 1 (step : Scan Buffer Step) := by
    refine blames_get fun lexer => ?_
    cases lexer.mode with
    | normal => exact blames_normal
    | badText => exact blames_badText
    | lineComment => exact blames_lineComment
    | blockComment => exact blames_blockComment
  refine begun.after fun _ => taken.before fun taken => ?_
  exact Blames.after (blames_of_same (fun _ => rfl) fun _ => rfl) fun _ => blames_pure _

/-- A failed refill is reported, and only that. -/
theorem reported_stopOnFailure (tells : Tells lexer.tape) (stalled : lexer.tape.stalled = true) :
    ∃ refusal after, stopOnFailure lexer = (true, after) ∧ refusal.isRefusal = true ∧
      lexer.Reported [refusal] after ∧ after.tape.stalled = true := by
  obtain ⟨refusal, failure_eq⟩ := Option.isSome_iff_exists.mp (tells stalled)
  have is_refusal : refusal.isRefusal = true := by
    obtain ⟨failure, -, refusal_eq⟩ := Option.bind_eq_some_iff.mp failure_eq
    cases failure with
    | exhausted => cases refusal_eq
    | outOfMemory | capacityOverflow | unreadable =>
        cases refusal_eq
        rfl
  let taken : Lexer Buffer := { lexer with tape := { lexer.tape with failure := none } }
  have stopped : stopOnFailure lexer = (true, (report refusal taken).2) := by
    have asked : ask Tape.takeFailure lexer = (lexer.tape.failure, taken) := rfl
    rw [stopOnFailure, run_bind, asked]
    dsimp only
    rw [failure_eq]
    rfl
  have outlasts : Buffer.Outlasts fun buffer => buffer.stalled = true :=
    Buffer.lasts_stalled.outlasts id id id
  obtain ⟨messages, finished⟩ := reported_report refusal taken
  exact ⟨refusal, _, stopped, is_refusal, ⟨messages, finished⟩,
    keeps_report outlasts refusal taken stalled⟩

end Scan

theorem LexError.isFatal_of_isRefusal {error : LexError} (refusal : error.isRefusal = true) :
    error.isFatal = true := by
  cases error <;> first | rfl | cases refusal

/-- An error that ends the input though no refill has failed: a string or a comment is cut off. -/
def LexError.IsCut (error : LexError) : Prop :=
  error.isFatal = true ∧ error.isRefusal = false

namespace Lexer

variable {contents : Bytes} {lexer after : Lexer Buffer} {errors : List LexError}

/-- All that a lexer has reported, and what has become of it. -/
inductive Told (errors : List LexError) (lexer : Lexer Buffer) : Prop
  /-- Every error has been skipped over. -/
  | running (running : lexer.finished = false) (flowing : lexer.tape.stalled = false)
      (skipped : ∀ error ∈ errors, error.isFatal = false)
  /-- The input has ended in a string or a comment. -/
  | ended (finished : lexer.finished = true) (flowing : lexer.tape.stalled = false)
      {earlier : List LexError} {cut : LexError} (errors_eq : errors = earlier ++ [cut])
      (skipped : ∀ error ∈ earlier, error.isFatal = false) (isCut : cut.IsCut)
  /-- A refill has failed, in a string or a comment perhaps. -/
  | refused (finished : lexer.finished = true) (stalled : lexer.tape.stalled = true)
      {earlier : List LexError} {cut : Option LexError} {refusal : LexError}
      (errors_eq : errors = earlier ++ cut.toList ++ [refusal])
      (skipped : ∀ error ∈ earlier, error.isFatal = false) (isCut : ∀ error ∈ cut, error.IsCut)
      (isRefusal : refusal.isRefusal = true)

theorem Told.of_same (told : Told errors lexer) (finished : after.finished = lexer.finished)
    (stalled : after.tape.stalled = lexer.tape.stalled) : Told errors after := by
  cases told with
  | running running flowing skipped =>
      exact .running (finished.trans running) (stalled.trans flowing) skipped
  | ended done flowing errors_eq skipped isCut =>
      exact .ended (finished.trans done) (stalled.trans flowing) errors_eq skipped isCut
  | refused done failed errors_eq skipped isCut isRefusal =>
      exact .refused (finished.trans done) (stalled.trans failed) errors_eq skipped isCut isRefusal

/-- The one error of a turn is skipped over, or something is cut off. -/
theorem reported_turn (running : lexer.finished = false) :
    ∃ (skipped : List LexError) (cut : Option LexError),
      lexer.Reported (skipped ++ cut.toList) (Scan.turn lexer).2 ∧
        (∀ error ∈ skipped, error.isFatal = false) ∧ (∀ error ∈ cut, error.IsCut) ∧
        (Scan.turn lexer).2.finished = cut.isSome := by
  obtain ⟨found, length_le, own, reported⟩ := Scan.blames_turn lexer
  have finished_eq := reported.finished
  rw [running, Bool.false_or] at finished_eq
  rcases found with - | ⟨error, - | ⟨second, further⟩⟩
  · exact ⟨[], none, reported, by simp, by simp, finished_eq⟩
  · rw [List.any_cons, List.any_nil, Bool.or_false] at finished_eq
    cases fatal : error.isFatal with
    | true =>
        have isCut : error.IsCut := ⟨fatal, own error List.mem_cons_self⟩
        exact ⟨[], some error, reported, by simp, by simpa using isCut, finished_eq.trans fatal⟩
    | false => exact ⟨[error], none, reported, by simpa using fatal, by simp, finished_eq.trans fatal⟩
  · simp at length_le

/-- A turn that no refill fails in. -/
theorem told_turn (running : lexer.finished = false)
    (skipped : ∀ error ∈ errors, error.isFatal = false)
    (flowing : (Scan.turn lexer).2.tape.stalled = false) :
    ∃ further, lexer.Reported further (Scan.turn lexer).2 ∧
      Told (errors ++ further) (Scan.turn lexer).2 := by
  obtain ⟨more, cut, reported, more_skipped, isCut, finished_eq⟩ := reported_turn running
  have all_skipped := List.forall_mem_append.mpr ⟨skipped, more_skipped⟩
  refine ⟨_, reported, ?_⟩
  rw [← List.append_assoc]
  cases cut with
  | none =>
      rw [Option.toList_none, List.append_nil]
      exact .running finished_eq flowing all_skipped
  | some cut => exact .ended finished_eq flowing rfl all_skipped (isCut cut rfl)

/-- A turn that a refill fails in, and the report of that. -/
theorem told_refusal (running : lexer.finished = false)
    (skipped : ∀ error ∈ errors, error.isFatal = false) {refusal : LexError}
    (isRefusal : refusal.isRefusal = true)
    (reported : (Scan.turn lexer).2.Reported [refusal] after)
    (stalled : after.tape.stalled = true) :
    ∃ further, lexer.Reported further after ∧ Told (errors ++ further) after := by
  obtain ⟨more, cut, turn_reported, more_skipped, isCut, -⟩ := reported_turn running
  have all_skipped := List.forall_mem_append.mpr ⟨skipped, more_skipped⟩
  have finished : after.finished = true := by
    rw [reported.finished, List.any_cons, LexError.isFatal_of_isRefusal isRefusal, Bool.true_or,
      Bool.or_true]
  refine ⟨_, turn_reported.trans reported, ?_⟩
  rw [← List.append_assoc, ← List.append_assoc]
  exact .refused finished stalled rfl all_skipped isCut isRefusal

/-- What a round adds to what has been reported. -/
theorem Told.round (told : Told errors lexer) (ready : lexer.Ready contents) :
    ∃ further, lexer.Reported further (Scan.round lexer).2 ∧
      Told (errors ++ further) (Scan.round lexer).2 := by
  have nothing (finished : lexer.finished = true) : ∃ further,
      lexer.Reported further (Scan.round lexer).2 ∧
        Told (errors ++ further) (Scan.round lexer).2 := by
    rw [Scan.round_of_finished finished]
    refine ⟨[], .nil rfl rfl, ?_⟩
    rw [List.append_nil]
    exact told.of_same rfl rfl
  cases told with
  | ended finished | refused finished => exact nothing finished
  | running running flowing skipped =>
      have turn_shows := (Scan.simulation_tracksBare.turn lexer ready.shows).shows
      rw [Scan.round_of_running running]
      cases stalled : (Scan.turn lexer).2.tape.stalled with
      | false =>
          rw [Scan.stopOnFailure_of_flowing turn_shows stalled, if_neg Bool.false_ne_true]
          exact told_turn running skipped stalled
      | true =>
          have before_tells : Scan.Tells lexer.tape := fun before_stalled =>
            Bool.noConfusion (before_stalled.symm.trans flowing)
          have tells : Scan.Tells (Scan.turn lexer).2.tape :=
            (Scan.simulation_keeps Scan.outlasts_tells).turn lexer before_tells
          obtain ⟨refusal, after, stopped, isRefusal, reported, after_stalled⟩ :=
            Scan.reported_stopOnFailure tells stalled
          obtain ⟨further, all_reported, all_told⟩ :=
            told_refusal running skipped isRefusal reported after_stalled
          rw [stopped, if_pos rfl]
          exact ⟨further, ⟨all_reported.messages, all_reported.finished⟩,
            all_told.of_same rfl rfl⟩

/-- What a call adds to what has been reported. -/
theorem Told.next (told : Told errors lexer) (ready : lexer.Ready contents)
    (silent : lexer.reported = #[]) :
    ∃ further : List LexError,
      lexer.next.1.diagnostics.toList.map Diagnostic.message = further.map LexError.message ∧
        Told (errors ++ further) lexer.next.2 := by
  let Good (state : Lexer Buffer) : Prop := state.Ready contents ∧
    ∃ further, lexer.Reported further state ∧ Told (errors ++ further) state
  have kept (state : Lexer Buffer) (good : Good state) : Good (Scan.round state).2 := by
    obtain ⟨state_ready, further, reported, state_told⟩ := good
    obtain ⟨more, more_reported, more_told⟩ := state_told.round state_ready
    rw [List.append_assoc] at more_told
    exact ⟨state_ready.round_ready, further ++ more, reported.trans more_reported, more_told⟩
  have start : Good lexer :=
    ⟨ready, [], .nil rfl rfl, (List.append_nil errors).symm ▸ told⟩
  obtain ⟨-, further, reported, last_told⟩ := ready.ends_lexeme.keeps kept start
  have messages := reported.messages
  rw [silent, Array.toList_empty, List.map_nil, List.nil_append] at messages
  exact ⟨further, messages, last_told.of_same rfl rfl⟩

theorem Ready.told_after (ready : lexer.Ready contents) (silent : lexer.reported = #[])
    (running : lexer.finished = false) (calls : Nat) :
    (lexer.after calls).reported = #[] ∧ ∃ errors : List LexError,
      (lexer.errorsWithin calls).map Diagnostic.message = errors.map LexError.message ∧
        Told errors (lexer.after calls) := by
  induction calls with
  | zero =>
      exact ⟨silent, [], rfl, .running running (ready.flowing running) fun _ absent =>
        absurd absent List.not_mem_nil⟩
  | succ calls induction =>
      obtain ⟨calls_silent, errors, messages, told⟩ := induction
      obtain ⟨further, further_messages, further_told⟩ :=
        told.next (ready.after calls) calls_silent
      refine ⟨rfl, errors ++ further, ?_, further_told⟩
      rw [errorsWithin_succ, List.map_append, List.map_append, messages]
      exact congrArg (errors.map LexError.message ++ ·) further_messages

/-- Only the last errors are fatal, whatever the source is and whenever it refuses to be read. As
long as no refill fails there is one fatal error at most, about a string or a comment that is cut
off. If a refill has failed, that is the last error; only the step that needed the refill may have
found a string or a comment to be cut off before. -/
theorem fatal_errors_last {source : Source} (reads : source.contents = contents)
    (unread : source.position = 0) (filename : String) (lineWidth size bound calls : Nat) :
    let lexer := opened filename lineWidth source size bound
    ∃ (skipped : List LexError) (cut refusal : Option LexError),
      (lexer.errorsWithin calls).map Diagnostic.message =
          (skipped ++ cut.toList ++ refusal.toList).map LexError.message ∧
        (∀ error ∈ skipped, error.isFatal = false) ∧ (∀ error ∈ cut, error.IsCut) ∧
        (∀ error ∈ refusal, error.isRefusal = true) ∧
        (refusal.isSome = true ↔ (lexer.after calls).tape.stalled = true) := by
  intro lexer
  have ready := ready_opened reads unread filename lineWidth size bound
  obtain ⟨-, errors, messages, told⟩ := ready.told_after rfl rfl calls
  cases told with
  | running running flowing skipped =>
      refine ⟨errors, none, none, ?_, skipped, by simp, by simp, ?_⟩
      · rw [messages, Option.toList_none, List.append_nil, List.append_nil]
      · exact iff_of_false Bool.false_ne_true (flowing ▸ Bool.false_ne_true)
  | @ended finished flowing earlier cut errors_eq skipped isCut =>
      refine ⟨earlier, some cut, none, ?_, skipped, by simpa using isCut, by simp, ?_⟩
      · rw [messages, errors_eq, Option.toList_none, List.append_nil]
        rfl
      · exact iff_of_false Bool.false_ne_true (flowing ▸ Bool.false_ne_true)
  | @refused finished stalled earlier cut refusal errors_eq skipped isCut isRefusal =>
      have refused : ∀ error ∈ some refusal, error.isRefusal = true := by simpa using isRefusal
      refine ⟨earlier, cut, some refusal, ?_, skipped, isCut, refused, iff_of_true rfl stalled⟩
      rw [messages, errors_eq]
      rfl

/-- A file with a comment of forty bytes that can be read once only. -/
def cutComment : File :=
  { File.regular "a.wast" (#[0x28, 0x3b] ++ Array.replicate 38 0x61) with
    replies := fun request => if request = 0 then .delivered 40 else .refused .isADirectory }

/-- The comment is met by a refill that fails. -/
theorem fatal_errors_last_comment :
    let lexer := opened "a.wast" 0 (.file cutComment) 1 4096
    ∃ (skipped : List LexError) (cut refusal : Option LexError),
      (lexer.errorsWithin 1).map Diagnostic.message =
          (skipped ++ cut.toList ++ refusal.toList).map LexError.message ∧
        (∀ error ∈ skipped, error.isFatal = false) ∧ (∀ error ∈ cut, error.IsCut) ∧
        (∀ error ∈ refusal, error.isRefusal = true) ∧ refusal.isSome = true := by
  intro lexer
  obtain ⟨skipped, cut, refusal, messages, all_skipped, all_cut, all_refused, refused_iff⟩ :=
    @fatal_errors_last _ (.file cutComment) rfl rfl "a.wast" 0 1 4096 1
  exact ⟨skipped, cut, refusal, messages, all_skipped, all_cut, all_refused,
    refused_iff.mpr (by decide +kernel)⟩

/-- A comment that a failed refill cuts off is reported before the failure is. -/
theorem two_fatal_errors :
    let lexer := opened "a.wast" 0 (.file cutComment) 1 4096
    (lexer.errorsWithin 1).map Diagnostic.message =
      [LexError.unterminatedBlockComment.message,
        (LexError.sourceRead SystemError.isADirectory.message).message] := by
  decide +kernel

end Lexer

end WasmText
