import WasmText.Proofs.Buffer.Refinement
import WasmText.Proofs.Lexer.Simulation
import WasmText.Proofs.Source.Searching

/-!
# Lexers over buffers

A lexer over a buffer does what the same lexer does over a cursor, as long as no refill fails. Each
scan is followed through its operations on the tape, whose answers are the cursor's; the source
lines of its reports are found alike in every source.
-/

namespace WasmText

namespace Lexer

/-- The lexer over a cursor that is at the same place in the contents. -/
def place (contents : Bytes) (lexer : Lexer Buffer) : Lexer Cursor :=
  { lexer with tape := lexer.tape.place contents }

/-- A lexer whose buffer shows the contents, over a source that lets itself be searched. -/
structure Sound (contents : Bytes) (lexer : Lexer Buffer) : Prop where
  /-- The buffer shows the contents. -/
  shows : lexer.tape.Shows contents
  /-- The source serves the contents. -/
  serves : lexer.tape.source.Serves contents
  /-- The current line starts inside the contents. -/
  anchored : lexer.lineOffset ≤ contents.size

/-- A lexer over a buffer comes to the result of the lexer over the cursor at its place, unless a
refill has failed. -/
structure Follows {α : Type} (contents : Bytes) (before : Lexer Buffer) (result : α × Lexer Buffer)
    (plain : α × Lexer Cursor) : Prop where
  /-- The lexer stays sound. -/
  sound : result.2.Sound contents
  /-- Without a failure the answers agree and so do the places. -/
  agrees : result.2.tape.stalled = false →
    before.tape.stalled = false ∧ plain = (result.1, result.2.place contents)

end Lexer

namespace Scan

variable {α β : Type} {contents : Bytes}

/-- A scan over buffers follows a scan over cursors, wherever it begins. -/
def Tracks (contents : Bytes) (scan : Scan Buffer α) (plain : Scan Cursor α) : Prop :=
  ∀ lexer : Lexer Buffer, lexer.Sound contents →
    lexer.Follows contents (scan lexer) (plain (lexer.place contents))

theorem Tracks.pure (answer : α) :
    Tracks contents (pure answer : Scan Buffer α) (pure answer) :=
  fun _ sound => ⟨sound, fun flowing => ⟨flowing, rfl⟩⟩

theorem Tracks.bind {scan : Scan Buffer α} {plain : Scan Cursor α} {next : α → Scan Buffer β}
    {plain_next : α → Scan Cursor β} (first : Tracks contents scan plain)
    (second : ∀ answer, Tracks contents (next answer) (plain_next answer)) :
    Tracks contents (scan >>= next) (plain >>= plain_next) := by
  intro lexer sound
  obtain ⟨middle_sound, middle_agrees⟩ := first lexer sound
  obtain ⟨after_sound, after_agrees⟩ := second (scan lexer).1 (scan lexer).2 middle_sound
  refine ⟨after_sound, fun flowing => ?_⟩
  obtain ⟨middle_flowing, after_eq⟩ := after_agrees flowing
  obtain ⟨before_flowing, middle_eq⟩ := middle_agrees middle_flowing
  refine ⟨before_flowing, ?_⟩
  change plain_next (plain _).1 (plain _).2 = _
  rw [middle_eq]
  exact after_eq

/-- What follows may depend on the state in which it begins. -/
theorem Tracks.get {next : Lexer Buffer → Scan Buffer α} {plain_next : Lexer Cursor → Scan Cursor α}
    (second : ∀ lexer : Lexer Buffer, lexer.Sound contents →
      Tracks contents (next lexer) (plain_next (lexer.place contents))) :
    Tracks contents (get >>= next) (get >>= plain_next) :=
  fun lexer sound => second lexer sound lexer sound

theorem Tracks.ite {condition : Prop} [Decidable condition] {yes no : Scan Buffer α}
    {plain_yes plain_no : Scan Cursor α} (if_yes : Tracks contents yes plain_yes)
    (if_no : Tracks contents no plain_no) :
    Tracks contents (if condition then yes else no)
      (if condition then plain_yes else plain_no) := by
  split
  · exact if_yes
  · exact if_no

/-! ### Operations -/

/-- An operation of the tape that follows the cursor is a scan that does. -/
theorem tracks_ask {operation : Buffer → α × Buffer} {plain : Cursor → α × Cursor}
    (follows : ∀ buffer : Buffer, buffer.Shows contents →
      Buffer.Follows contents buffer (operation buffer) (plain (buffer.place contents)))
    (serves : ∀ buffer : Buffer, buffer.source.Serves contents →
      (operation buffer).2.source.Serves contents) :
    Tracks contents (ask operation) (ask plain) := by
  intro lexer sound
  obtain ⟨shows, agrees⟩ := follows lexer.tape sound.shows
  refine ⟨⟨shows, serves _ sound.serves, sound.anchored⟩, fun flowing => ?_⟩
  obtain ⟨before_flowing, plain_eq⟩ := agrees flowing
  refine ⟨before_flowing, ?_⟩
  have asked : ask plain (lexer.place contents) =
      ((plain (lexer.tape.place contents)).1,
        { lexer.place contents with tape := (plain (lexer.tape.place contents)).2 }) := rfl
  rw [asked, plain_eq]
  rfl

theorem tracks_move {operation : Buffer → Buffer} {plain : Cursor → Cursor}
    (follows : ∀ buffer : Buffer, buffer.Shows contents →
      Buffer.Follows contents buffer ((), operation buffer) ((), plain (buffer.place contents)))
    (serves : ∀ buffer : Buffer, buffer.source.Serves contents →
      (operation buffer).source.Serves contents) :
    Tracks contents (move operation) (move plain) :=
  @tracks_ask Unit contents (fun buffer => ((), operation buffer))
    (fun cursor => ((), plain cursor)) follows serves

theorem tracks_view {operation : Buffer → α} {plain : Cursor → α}
    (same : ∀ buffer : Buffer, buffer.Shows contents → buffer.stalled = false →
      operation buffer = plain (buffer.place contents)) :
    Tracks contents (view operation) (view plain) := by
  intro lexer sound
  refine ⟨sound, fun flowing => ⟨flowing, ?_⟩⟩
  exact congrArg (·, lexer.place contents) (same lexer.tape sound.shows flowing).symm

/-- A change of what the lexer remembers beside its tape. -/
theorem tracks_modify {change : Lexer Buffer → Lexer Buffer}
    {plain_change : Lexer Cursor → Lexer Cursor}
    (tape_eq : ∀ lexer, (change lexer).tape = lexer.tape)
    (anchored : ∀ lexer, lexer.Sound contents → (change lexer).lineOffset ≤ contents.size)
    (same : ∀ lexer, plain_change (lexer.place contents) = (change lexer).place contents) :
    Tracks contents (modify change) (modify plain_change) := by
  intro lexer sound
  refine ⟨⟨?_, ?_, anchored lexer sound⟩, fun flowing => ⟨?_, ?_⟩⟩
  · exact (tape_eq lexer).symm ▸ sound.shows
  · exact (tape_eq lexer).symm ▸ sound.serves
  · exact (tape_eq lexer) ▸ flowing
  · exact congrArg ((), ·) (same lexer)

theorem tracks_beginToken : Tracks contents (move Tape.beginToken) (move Tape.beginToken) :=
  tracks_move (fun _ shows => ⟨shows.beginToken, fun flowing => ⟨flowing, rfl⟩⟩) fun _ => id

theorem tracks_mark : Tracks contents (move Tape.mark) (move Tape.mark) :=
  tracks_move (fun _ shows => ⟨shows.mark, fun flowing => ⟨flowing, rfl⟩⟩) fun _ => id

theorem tracks_peek (ahead : Nat) : Tracks contents (peek ahead) (peek ahead) :=
  tracks_ask (fun _ shows => shows.peek ahead) fun _ => Buffer.lasts_serves.reach ahead

theorem tracks_isEndAt (ahead : Nat) : Tracks contents (isEndAt ahead) (isEndAt ahead) :=
  tracks_ask (fun _ shows => shows.isEndAt ahead) fun _ => Buffer.lasts_serves.reach ahead

theorem tracks_advance (count : Nat) : Tracks contents (advance count) (advance count) :=
  tracks_move (fun _ shows => shows.advance count)
    fun _ serves => Buffer.lasts_serves.advance serves count

theorem tracks_eatWhile (accepts : UInt8 → Bool) :
    Tracks contents (eatWhile accepts) (eatWhile accepts) :=
  tracks_move (fun _ shows => shows.eatWhile accepts)
    fun _ serves => Buffer.lasts_serves.eatWhile serves accepts

theorem tracks_skipUntil (wanted : UInt8 → Bool) :
    Tracks contents (skipUntil wanted) (skipUntil wanted) :=
  tracks_ask (fun _ shows => shows.skipUntil wanted)
    fun _ serves => Buffer.lasts_serves.skipUntil serves wanted

theorem tracks_tokenBytes : Tracks contents (view Tape.tokenBytes) (view Tape.tokenBytes) :=
  tracks_view fun _ shows _ => shows.tokenBytes_eq

theorem tracks_markedBytes : Tracks contents (view Tape.markedBytes) (view Tape.markedBytes) :=
  tracks_view fun _ shows _ => shows.markedBytes_eq

theorem tracks_remaining : Tracks contents (view Tape.remaining) (view Tape.remaining) :=
  tracks_view fun _ shows flowing => shows.remaining_eq flowing

theorem tracks_startLine : Tracks contents startLine startLine :=
  tracks_modify (fun _ => rfl)
    (fun _ sound => Nat.le_trans sound.shows.cursor_le_dataEnd sound.shows.dataEnd_le_size)
    fun _ => rfl

theorem tracks_nest (change : Nat → Nat) : Tracks contents (nest change) (nest change) :=
  tracks_modify (fun _ => rfl) (fun _ sound => sound.anchored) fun _ => rfl

/-! ### Reports -/

/-- A search of the source finds the same in all sources and leaves the reader where it is. -/
theorem tracks_search {query : Search α} {Good : α → Prop} (steady : query.Steady contents Good) :
    Tracks contents (ask (Tape.search query)) (ask (Tape.search query)) := by
  intro lexer sound
  obtain ⟨outcome, answers, -⟩ := steady
  obtain ⟨source, searched, serves, position_eq⟩ := answers lexer.tape.source sound.serves
  obtain ⟨plain_source, plain_searched, -⟩ :=
    answers (.ofBytes contents) (Source.opens_ofBytes contents).serves
  have result_eq : ask (Tape.search query) lexer =
      (outcome, { lexer with tape := { lexer.tape with source } }) := by
    change ((query.run lexer.tape.source).1,
      { lexer with tape := { lexer.tape with source := (query.run lexer.tape.source).2 } }) = _
    rw [searched]
  have plain_eq : ask (Tape.search query) (lexer.place contents) =
      (outcome, lexer.place contents) := by
    change ((query.run (.ofBytes contents)).1, lexer.place contents) = _
    rw [plain_searched]
  have shows : Buffer.Shows contents { lexer.tape with source } :=
    { sound.shows with
      contents_eq := serves.contents_eq
      position_eq := fun flowing => position_eq.trans (sound.shows.position_eq flowing) }
  rw [result_eq, plain_eq]
  exact ⟨⟨shows, serves, sound.anchored⟩, fun flowing => ⟨flowing, rfl⟩⟩

theorem tracks_lineFor (location : Location) :
    Tracks contents (lineFor location) (lineFor location) := by
  refine Tracks.get fun before _ => ?_
  refine Tracks.ite (Tracks.pure none) ?_
  refine Tracks.bind ?_ fun outcome => Tracks.pure outcome.toOption
  intro lexer sound
  exact tracks_search (SourceLine.steady_search lexer.anchor location before.lineWidth
    sound.anchored) lexer sound

theorem tracks_report (error : LexError) : Tracks contents (report error) (report error) := by
  refine Tracks.get fun lexer _ => ?_
  refine Tracks.bind (tracks_lineFor _) fun sourceLine => ?_
  exact tracks_modify (fun _ => rfl) (fun _ sound => sound.anchored) fun _ => rfl

/-! ### Calls -/

theorem simulation_tracks : Simulation fun _ => Tracks contents where
  pure := Tracks.pure
  bind := Tracks.bind
  get := fun next => Tracks.get fun lexer _ => next lexer (lexer.place contents) ⟨rfl, rfl, rfl⟩
  beginToken := tracks_beginToken
  mark := tracks_mark
  peek := tracks_peek
  isEndAt := tracks_isEndAt
  advance := tracks_advance
  eatWhile := tracks_eatWhile
  skipUntil := tracks_skipUntil
  tokenBytes := tracks_tokenBytes
  markedBytes := tracks_markedBytes
  remaining := tracks_remaining
  startLine := tracks_startLine
  nest := tracks_nest
  enter := fun _ => tracks_modify (fun _ => rfl) (fun _ sound => sound.anchored) fun _ => rfl
  report := tracks_report

/-- A buffer that has not failed has no failure to be taken. -/
theorem tracks_takeFailure :
    Tracks contents (ask Tape.takeFailure) (ask Tape.takeFailure) := by
  refine tracks_ask ?_ fun _ => id
  intro buffer shows
  refine ⟨{ shows with failure_eq := fun _ => rfl }, fun flowing => ⟨flowing, ?_⟩⟩
  exact congrArg (·, buffer.place contents) (shows.failure_eq flowing).symm

/-- Without a failure there is nothing to stop for. -/
theorem stopOnFailure_of_flowing {lexer : Lexer Buffer} (shows : lexer.tape.Shows contents)
    (flowing : lexer.tape.stalled = false) : stopOnFailure lexer = (false, lexer) := by
  have no_failure := shows.failure_eq flowing
  have taken : ask Tape.takeFailure lexer = (none, lexer) := by
    change (lexer.tape.failure, { lexer with tape := { lexer.tape with failure := none } }) = _
    rw [← no_failure]
  unfold stopOnFailure
  rw [run_bind, taken]
  rfl

theorem tracks_lexeme : Tracks contents lexeme lexeme :=
  simulation_tracks.lexeme tracks_takeFailure

end Scan

namespace Lexer

variable {contents : Bytes} {lexer : Lexer Buffer}

/-- The lexer after so many calls of `next`. -/
def after {τ : Type} [Tape τ] : Nat → Lexer τ → Lexer τ
  | 0, lexer => lexer
  | calls + 1, lexer => (after calls lexer).next.2

/-- What a call of `next` gives after so many others. -/
def reading {τ : Type} [Tape τ] (calls : Nat) (lexer : Lexer τ) : Reading :=
  (lexer.after calls).next.1

/-- Calls over buffers are seen as calls over cursors, as long as no refill fails. -/
structure Views (Good : Lexer Buffer → Prop) (view : Lexer Buffer → Lexer Cursor)
    (sight : Reading → Reading) : Prop where
  /-- A good lexer stays good. -/
  keeps : ∀ {lexer}, Good lexer → Good lexer.next.2
  /-- What is seen of a call is the call of the lexer that is seen. -/
  agrees : ∀ {lexer}, Good lexer → lexer.next.2.tape.stalled = false →
    lexer.tape.stalled = false ∧ (view lexer).next = (sight lexer.next.1, view lexer.next.2)
  /-- The end of the input is seen. -/
  isEof_eq : ∀ reading, (sight reading).token.isEof = reading.token.isEof

variable {Good : Lexer Buffer → Prop} {view : Lexer Buffer → Lexer Cursor}
  {sight : Reading → Reading}

theorem Views.after (views : Views Good view sight) (good : Good lexer) (calls : Nat) :
    Good (lexer.after calls) ∧ ((lexer.after calls).tape.stalled = false →
      lexer.tape.stalled = false ∧ (view lexer).after calls = view (lexer.after calls)) := by
  induction calls with
  | zero => exact ⟨good, fun flowing => ⟨flowing, rfl⟩⟩
  | succ calls induction =>
      obtain ⟨middle_good, middle_agrees⟩ := induction
      refine ⟨views.keeps middle_good, fun flowing => ?_⟩
      obtain ⟨middle_flowing, next_eq⟩ := views.agrees middle_good flowing
      obtain ⟨before_flowing, middle_eq⟩ := middle_agrees middle_flowing
      refine ⟨before_flowing, ?_⟩
      rw [Lexer.after, middle_eq, next_eq]
      rfl

theorem Views.readingsWithin (views : Views Good view sight) (good : Good lexer) (tokens : Nat)
    (readings : Array Reading) :
    Good (lexer.readingsWithin tokens readings).2 ∧
      ((lexer.readingsWithin tokens readings).2.tape.stalled = false →
        lexer.tape.stalled = false ∧
          (view lexer).readingsWithin tokens (readings.map sight) =
            ((lexer.readingsWithin tokens readings).1.map sight,
              view (lexer.readingsWithin tokens readings).2)) := by
  induction tokens generalizing lexer readings with
  | zero => exact ⟨good, fun flowing => ⟨flowing, rfl⟩⟩
  | succ tokens induction =>
      have next_good := views.keeps good
      rw [Lexer.readingsWithin, Lexer.readingsWithin]
      dsimp only
      cases eof : lexer.next.1.token.isEof with
      | true =>
          rw [if_pos rfl]
          refine ⟨next_good, fun flowing => ?_⟩
          obtain ⟨before_flowing, next_eq⟩ := views.agrees good flowing
          refine ⟨before_flowing, ?_⟩
          rw [next_eq, views.isEof_eq, eof, if_pos rfl, Array.map_push]
      | false =>
          rw [if_neg Bool.false_ne_true]
          obtain ⟨last_good, last_agrees⟩ := induction next_good (readings.push lexer.next.1)
          refine ⟨last_good, fun flowing => ?_⟩
          obtain ⟨next_flowing, last_eq⟩ := last_agrees flowing
          obtain ⟨before_flowing, next_eq⟩ := views.agrees good next_flowing
          refine ⟨before_flowing, ?_⟩
          rw [next_eq, views.isEof_eq, eof, if_neg Bool.false_ne_true, ← Array.map_push]
          exact last_eq

theorem Sound.next (sound : lexer.Sound contents) :
    lexer.Follows contents lexer.next (lexer.place contents).next := by
  obtain ⟨after_sound, agrees⟩ := Scan.tracks_lexeme lexer sound
  refine ⟨⟨after_sound.shows, after_sound.serves, after_sound.anchored⟩, fun flowing => ?_⟩
  obtain ⟨before_flowing, plain_eq⟩ := agrees flowing
  refine ⟨before_flowing, ?_⟩
  have scanned : Scan.lexeme.run (lexer.place contents) =
    ((Scan.lexeme.run lexer).1, (Scan.lexeme.run lexer).2.place contents) := plain_eq
  unfold Lexer.next
  rw [scanned]
  rfl

theorem views_sound : Views (Sound contents) (place contents) id where
  keeps := fun sound => sound.next.sound
  agrees := fun sound => sound.next.agrees
  isEof_eq := fun _ => rfl

theorem Sound.after (sound : lexer.Sound contents) (calls : Nat) :
    lexer.Follows contents ((), lexer.after calls) ((), (lexer.place contents).after calls) := by
  obtain ⟨after_sound, agrees⟩ := views_sound.after sound calls
  refine ⟨after_sound, fun flowing => ?_⟩
  obtain ⟨before_flowing, after_eq⟩ := agrees flowing
  exact ⟨before_flowing, congrArg (Prod.mk ()) after_eq⟩

theorem Sound.readings (sound : lexer.Sound contents) :
    lexer.Follows contents lexer.readings (lexer.place contents).readings := by
  obtain ⟨last_sound, agrees⟩ :=
    views_sound.readingsWithin sound (Tape.remaining lexer.tape + 1) #[]
  refine ⟨last_sound, fun flowing => ?_⟩
  obtain ⟨before_flowing, last_eq⟩ := agrees flowing
  refine ⟨before_flowing, ?_⟩
  have remaining_eq : Tape.remaining (lexer.place contents).tape = Tape.remaining lexer.tape :=
    (sound.shows.remaining_eq before_flowing).symm
  rw [Array.map_id, Array.map_id] at last_eq
  rw [Lexer.readings, remaining_eq]
  exact last_eq

/-- A lexer over a source, with the capacity that its buffer first allocates and the size from which
on allocations fail. -/
def opened (filename : String) (lineWidth : Nat) (source : Source) (size bound : Nat) :
    Lexer Buffer :=
  ofTape filename lineWidth (Buffer.opened source size bound)

/-- A lexer over a cursor before the first byte. -/
def plain (filename : String) (lineWidth : Nat) (contents : Bytes) : Lexer Cursor :=
  ofTape filename lineWidth (Cursor.ofBytes contents)

theorem sound_opened {source : Source} (opens : source.Opens contents) (filename : String)
    (lineWidth size bound : Nat) :
    (opened filename lineWidth source size bound).Sound contents where
  shows := Buffer.shows_opened opens.serves.contents_eq opens.unread size bound
  serves := opens.serves
  anchored := Nat.zero_le _

/-- What a lexer over a source that serves the contents reads is what the lexer over a cursor reads,
and the two are at the same place afterwards. -/
theorem reading_eq_plain {source : Source} (opens : source.Opens contents) (filename : String)
    (lineWidth size bound calls : Nat)
    (flowing : ((opened filename lineWidth source size bound).after (calls + 1)).tape.stalled =
      false) :
    (plain filename lineWidth contents).reading calls =
        (opened filename lineWidth source size bound).reading calls ∧
      (plain filename lineWidth contents).after (calls + 1) =
        ((opened filename lineWidth source size bound).after (calls + 1)).place contents := by
  have sound := sound_opened opens filename lineWidth size bound
  obtain ⟨middle_sound, middle_agrees⟩ := sound.after calls
  obtain ⟨middle_flowing, next_eq⟩ := middle_sound.next.agrees flowing
  have middle_eq : (plain filename lineWidth contents).after calls = _ :=
    (Prod.mk.inj (middle_agrees middle_flowing).2).2
  rw [Lexer.after, reading, middle_eq, next_eq]
  exact ⟨rfl, rfl⟩

/-- All that a lexer over a source that serves the contents reads is what the lexer over a cursor
reads. -/
theorem readings_eq_plain {source : Source} (opens : source.Opens contents)
    (filename : String) (lineWidth size bound : Nat)
    (flowing : (opened filename lineWidth source size bound).readings.2.tape.stalled = false) :
    (plain filename lineWidth contents).readings.1 =
      (opened filename lineWidth source size bound).readings.1 := by
  have sound := sound_opened opens filename lineWidth size bound
  have place_eq : (opened filename lineWidth source size bound).place contents =
      plain filename lineWidth contents := rfl
  have agrees := (sound.readings.agrees flowing).2
  rw [place_eq] at agrees
  rw [agrees]

/-- Refills are transparent. Two lexers over sources of the same contents read the same tokens at
the same locations with the same diagnostics, and are on the same line after each of them, whatever
the sources and the capacities of their buffers are, as long as no refill fails. -/
theorem reading_eq_of_opens {first second : Source} (first_opens : first.Opens contents)
    (second_opens : second.Opens contents) (filename : String)
    (lineWidth first_size first_bound second_size second_bound calls : Nat)
    (first_flowing : ((opened filename lineWidth first first_size first_bound).after
      (calls + 1)).tape.stalled = false)
    (second_flowing : ((opened filename lineWidth second second_size second_bound).after
      (calls + 1)).tape.stalled = false) :
    (opened filename lineWidth first first_size first_bound).reading calls =
        (opened filename lineWidth second second_size second_bound).reading calls ∧
      ((opened filename lineWidth first first_size first_bound).after (calls + 1)).line =
        ((opened filename lineWidth second second_size second_bound).after (calls + 1)).line := by
  obtain ⟨first_reading, first_after⟩ :=
    reading_eq_plain first_opens filename lineWidth first_size first_bound calls first_flowing
  obtain ⟨second_reading, second_after⟩ :=
    reading_eq_plain second_opens filename lineWidth second_size second_bound calls second_flowing
  refine ⟨first_reading.symm.trans second_reading, ?_⟩
  calc
    ((opened filename lineWidth first first_size first_bound).after (calls + 1)).line =
        ((plain filename lineWidth contents).after (calls + 1)).line := by rw [first_after]; rfl
    _ = ((opened filename lineWidth second second_size second_bound).after (calls + 1)).line := by
      rw [second_after]; rfl

/-- Bytes in memory behind a window of one byte and a file behind one of nine, after a comment. -/
theorem reading_eq_of_opens_comment :
    (opened "a.wast" 80 (.ofBytes #[0x28, 0x3b, 0x3b, 0x29, 0x31]) 1 4096).reading 0 =
      (opened "a.wast" 80 (.file (.regular "a.wast" #[0x28, 0x3b, 0x3b, 0x29, 0x31])) 9
        4096).reading 0 :=
  (reading_eq_of_opens (Source.opens_ofBytes _) (Source.opens_regular "a.wast" (by decide)) "a.wast"
    80 1 4096 9 4096 0 (by decide +kernel) (by decide +kernel)).1

end Lexer

end WasmText
