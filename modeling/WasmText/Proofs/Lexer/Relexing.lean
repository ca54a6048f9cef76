import WasmText.Proofs.Lexer.Bare
import WasmText.Proofs.Lexer.Unambiguous

/-!
# Reading tokens again

The bytes of the tokens that a lexer reads, set apart by white space, are read as the same tokens.
Of the errors only those inside of strings are found again, since they belong to the bytes of the
strings.
-/

namespace WasmText

/-- An error in the content of a string. -/
def LexError.IsContent (error : LexError) : Prop :=
  error = .illegalCharInString ∨ ∃ text, error = .badEscape text

/-- Tokens in order with white space around them, and at least some between them. -/
inductive Spaced : List (List UInt8) → List UInt8 → Prop
  | last {space} (white : ∀ byte ∈ space, isWhite byte = true) : Spaced [] space
  | token {space bytes tokens rest} (white : ∀ byte ∈ space, isWhite byte = true)
      (apart : tokens ≠ [] → Heads isWhite rest) (further : Spaced tokens rest) :
      Spaced (bytes :: tokens) (space ++ (bytes ++ rest))

variable {before bytes rest : List UInt8} {errors : List LexError} {lexeme : Lexeme}

theorem StringUnit.isContent {unit : List UInt8} {error : LexError}
    (reads : StringUnit unit (some error) rest) : error.IsContent := by
  cases reads with
  | badEscape => exact .inr ⟨_, rfl⟩
  | lone | illegal => exact .inl rfl

theorem StringContent.isContent {content : List UInt8}
    (reads : StringContent content errors rest) : ∀ error ∈ errors, error.IsContent := by
  induction reads with
  | nil => exact nofun
  | @cons unit content error _ _ first _ induction =>
      intro found present
      rcases List.mem_append.mp present with here | later
      · obtain rfl := Option.mem_toList.mp here
        exact first.isContent
      · exact induction found later

/-- The errors of a token are those of a string's content. -/
theorem Spelling.isContent (spells : Spelling before bytes lexeme errors rest) :
    ∀ error ∈ errors, lexeme.kind = .text ∧ error.IsContent := by
  cases spells with
  | leftParen | rightParen | atom => exact nofun
  | string reads => exact fun error present => ⟨rfl, reads.isContent error present⟩

/-- No token begins with white space. -/
theorem Spelling.not_heads_white (spells : Spelling before bytes lexeme errors rest)
    (other : List UInt8) : ¬ Heads isWhite (bytes ++ other) := by
  obtain ⟨first, tail, rfl⟩ := List.exists_cons_of_ne_nil spells.nonempty
  obtain ⟨byte, more, whole, begins⟩ := spells.begins
  obtain ⟨rfl, -⟩ := List.cons.inj whole
  rintro ⟨_, ⟨⟩, white⟩
  exact Bool.noConfusion (white.symm.trans begins.not_white)

/-- White space parts the bytes behind it from those before. -/
theorem not_tails_append {space : List UInt8} (white : ∀ byte ∈ space, isWhite byte = true)
    (parted : space = [] → ¬ Tails Atom.isAtomByte before) :
    ¬ Tails Atom.isAtomByte (before ++ space) := by
  by_cases empty : space = []
  · rw [empty, List.append_nil]
    exact parted empty
  · rw [tails_append_of_ne_nil empty]
    rintro ⟨last, last_eq, atom_byte⟩
    have no_atom := no_atom_of_isWhite (white last (List.mem_of_getLast? last_eq))
    exact Bool.noConfusion (atom_byte.symm.trans no_atom)

/-- What follows the last or another token begins with white space, if with anything. -/
theorem Spaced.white_head {tokens : List (List UInt8)} (spaced : Spaced tokens rest)
    (apart : tokens ≠ [] → Heads isWhite rest) : ∀ byte ∈ rest.head?, isWhite byte = true := by
  intro byte head_eq
  cases spaced with
  | last white => exact white byte (List.mem_of_mem_head? head_eq)
  | token =>
      obtain ⟨first, first_eq, white⟩ := apart (List.cons_ne_nil _ _)
      cases Option.some.inj (first_eq.symm.trans head_eq)
      exact white

/-- Only strings go on from one step to the next, and no comment ends with a token. -/
theorem Piece.Fits.begins_token {nesting : Nat} {token : List UInt8} {mode : Mode} {piece : Piece}
    (fits : Fits nesting token mode piece rest) (goes_on : piece.ends = false)
    (inside : piece.lexeme.isSome = true ∨ piece.mode = .badText) :
    mode = .normal ∨ mode = .badText := by
  cases fits with
  | atEnd | leftParen | rightParen | blockOpening | lineOpening | blanks | newline | atom | text |
      textOpening | stray => exact .inl rfl
  | textAtEnd | textClosing | textAtNewline | unit | plains => exact .inr rfl
  | lineAtEnd | blockAtEnd => cases goes_on
  | lineAtNewline | blockAtNewline | nestedOpening | undelimiting =>
      rcases inside with completes | text
      · cases completes
      · cases text
  | blockClosing =>
      rcases inside with completes | text
      · cases completes
      · dsimp only at text
        split at text
        all_goals cases text

namespace Lexer

variable {lexer after : Lexer Cursor} {contents : Bytes}

/-! ### The start of a token -/

/-- A token starts where a step of the lexer began, unless that is inside of it. -/
theorem token_take (goes_on : lexer.piece.ends = false) :
    (lexer.take lexer.piece).tape.token =
      if lexer.mode = .badText then lexer.tape.token else lexer.tape.offset := by
  change (if lexer.piece.ends then _ else lexer.begun.tape.token) = _
  rw [goes_on]
  rfl

/-- A lexer over a buffer that has come to the start of a token, from where on a call finds it. -/
structure Starts (contents : Bytes) (lexeme : Lexeme) (after : Lexer Cursor)
    (before begun : Lexer Buffer) (errors : List LexError) : Prop where
  /-- Turns that complete nothing lead there. -/
  skips : Skips before begun
  /-- The bookkeeping is right. -/
  tidy : (begun.place contents).Tidy
  /-- Any lexeme may come. -/
  normal : begun.mode = .normal
  /-- No fatal error has been reported. -/
  running : begun.finished = false
  /-- No run of atom bytes is cut in two. -/
  parted : Parted (begun.place contents).tape.passed (begun.place contents).tape.ahead
  /-- The token starts there. -/
  cursor_eq : begun.tape.cursor = after.tape.token
  /-- From there on the token is found, with its errors. -/
  finds : Finds (begun.place contents) errors lexeme after

/-- A call that finds a token comes to its start, unless it began inside of it. -/
theorem Finds.starts (finds : Finds lexer errors lexeme after) (tidy : lexer.Tidy)
    (token : lexeme ≠ .eof)
    (parted : lexer.mode = .normal → Parted lexer.tape.passed lexer.tape.ahead) {steps : Nat}
    {buffered : Lexer Buffer} (sound : buffered.Sound contents)
    (place_eq : lexer = buffered.place contents) (enough : lexer.tape.ahead.length < steps)
    (flowing : (Scan.lexemeWithin steps buffered).2.tape.stalled = false) :
    lexer.mode = .badText ∧ after.tape.token = lexer.tape.token ∨
      ∃ begun own, Starts contents lexeme after buffered begun own := by
  induction finds generalizing buffered steps with
  | finished => exact absurd rfl token
  | @completes lexer lexeme running completes =>
      obtain ⟨rest, -, fits⟩ := lexer.exists_rest
      have goes_on := goes_on_of_token completes token
      have token_eq := token_take goes_on
      rcases fits.begins_token goes_on (.inl (Option.isSome_of_eq_some completes)) with
        normal | text
      · rw [normal, if_neg nofun] at token_eq
        subst place_eq
        exact .inr ⟨buffered, _, .refl buffered, tidy, normal, running, parted normal,
          token_eq.symm, .completes running completes⟩
      · rw [if_pos text] at token_eq
        exact .inl ⟨text, token_eq⟩
  | @goesOn lexer after errors lexeme running skips further induction =>
      obtain ⟨rest, ahead_eq, fits⟩ := lexer.exists_rest
      have goes_on := goes_on_of_skips skips
      have parted_take : (lexer.take lexer.piece).mode = .normal →
          Parted (lexer.take lexer.piece).tape.passed (lexer.take lexer.piece).tape.ahead := by
        rw [passed_take ahead_eq, ahead_take ahead_eq]
        exact fits.parted goes_on
      have finds : Finds lexer _ lexeme after := .goesOn running skips further
      subst place_eq
      obtain ⟨steps, rfl⟩ := Nat.exists_eq_succ_of_ne_zero (Nat.ne_zero_of_lt enough)
      obtain ⟨turn_flowing, rest_flowing⟩ := Scan.flowing_of_lexemeWithin sound running flowing
      obtain ⟨lexeme_eq, place_eq⟩ := sound.turn tidy turn_flowing
      have buffered_skips := lexeme_eq.trans skips
      have shorter := length_ahead_take_lt goes_on
      rcases induction tidy.take token parted_take (Scan.tracks_turn buffered sound).sound
        place_eq.symm (by omega) (rest_flowing buffered_skips) with
        ⟨text, token_eq⟩ | ⟨begun, own, starts⟩
      · rw [token_take goes_on] at token_eq
        rcases fits.begins_token goes_on (.inr text) with normal | still_text
        · rw [normal, if_neg nofun] at token_eq
          exact .inr ⟨buffered, _, .refl buffered, tidy, normal, running, parted normal,
            token_eq.symm, finds⟩
        · rw [if_pos still_text] at token_eq
          exact .inl ⟨still_text, token_eq⟩
      · exact .inr ⟨begun, own,
          { starts with skips := .turn running buffered_skips starts.skips }⟩

/-- The token is spelled right there. -/
theorem Starts.spells {begun buffered : Lexer Buffer}
    (starts : Starts contents lexeme after buffered begun errors) (token : lexeme ≠ .eof) :
    Spelling (begun.place contents).tape.passed after.tape.pending lexeme errors
      after.tape.ahead := by
  have stretch := starts.finds.stretch starts.tidy starts.running
  rw [show (begun.place contents).mode = .normal from starts.normal] at stretch
  rcases (stretch starts.parted).cases with
    ⟨rfl, -⟩ | ⟨gap, gap_errors, own_errors, ahead_eq, rfl, fills, spells⟩
  · exact absurd rfl token
  · have split := starts.finds.bytes_split starts.tidy
    rw [ahead_eq, ← List.append_assoc _ gap] at split
    have length_eq := congrArg List.length (List.append_cancel_right split)
    rw [((starts.finds.tidy starts.tidy).token_lengths).1, List.length_append,
      Cursor.length_passed starts.tidy.offset_le] at length_eq
    have cursor_eq : (begun.place contents).tape.offset = after.tape.token := starts.cursor_eq
    obtain rfl : gap = [] := List.length_eq_zero_iff.mp (by omega)
    rw [List.append_nil] at spells
    obtain ⟨-, rfl⟩ := fills.of_spelling spells rfl
    exact spells

/-- After a token the lexer is between two tokens. -/
theorem Between.next_of_token (between : lexer.Between) (finds : Finds lexer errors lexeme after)
    (token : lexeme ≠ .eof) : (handOut lexeme after).2.Between := by
  rcases (between.stretch finds).cases with
    ⟨rfl, -⟩ | ⟨gap, gap_errors, own_errors, ahead_eq, -, -, spells⟩
  · exact absurd rfl token
  · refine (between.next finds spells ?_).1
    rw [ahead_eq, List.append_assoc]

theorem between_after {filename : String} {lineWidth calls : Nat}
    (tokens : ∀ call < calls,
      ((plain filename lineWidth contents).reading call).token.isEof = false) :
    ((plain filename lineWidth contents).after calls).Between := by
  induction calls with
  | zero => exact between_plain filename lineWidth contents
  | succ calls induction =>
      have between := induction fun call before => tokens call (Nat.lt_succ_of_lt before)
      obtain ⟨errors, lexeme, after, finds, next_eq⟩ := exists_finds between.tidy
      have token := tokens calls (Nat.lt_succ_self calls)
      rw [reading, next_eq] at token
      rw [Lexer.after, next_eq]
      refine between.next_of_token finds ?_
      rintro rfl
      cases token

/-! ### Reading again -/

/-- A lexer to which so many tokens are still to come, set apart by white space. -/
structure Spacing (lexer : Lexer Cursor) (tokens : List (List UInt8)) : Prop where
  /-- The lexer is between two tokens. -/
  between : lexer.Between
  /-- The tokens are ahead. -/
  spaced : Spaced tokens lexer.tape.ahead
  /-- The next of them is set apart from what the lexer has passed. -/
  apart : tokens ≠ [] →
    ¬ Tails Atom.isAtomByte lexer.tape.passed ∨ Heads isWhite lexer.tape.ahead

variable {tokens : List (List UInt8)}

/-- The next token is read again, with the errors that belong to its bytes. -/
theorem Spacing.next (spacing : lexer.Spacing (bytes :: tokens))
    (spells : Spelling before bytes lexeme errors rest) :
    lexer.next.1.token.kind = lexeme.kind ∧ lexer.next.1.token.payload = lexeme.payload ∧
      lexer.next.1.diagnostics.toList.map Diagnostic.message = errors.map LexError.message ∧
      lexer.next.2.Spacing tokens := by
  obtain ⟨between, spaced, apart⟩ := spacing
  obtain ⟨found_errors, found, after, finds, next_eq⟩ := exists_finds between.tidy
  have stretch := between.stretch finds
  generalize ahead_eq : lexer.tape.ahead = ahead at spaced apart stretch
  cases spaced with
  | @token space _ _ behind white apart_behind further =>
      have parted : ¬ Tails Atom.isAtomByte (lexer.tape.passed ++ space) := by
        refine not_tails_append white fun empty => ?_
        rw [empty] at apart
        exact (apart (List.cons_ne_nil _ _)).resolve_right (spells.not_heads_white behind)
      have again := spells.between parted (further.white_head apart_behind)
      obtain ⟨rfl, rfl, pending_eq, rest_eq⟩ := (stretch.of_space white).of_spelling again
      rw [← pending_eq, ← rest_eq] at again
      have split : lexer.tape.passed ++ lexer.tape.ahead =
          lexer.tape.passed ++ space ++ (after.tape.pending ++ after.tape.ahead) := by
        rw [ahead_eq, pending_eq, rest_eq, List.append_assoc]
      rw [next_eq]
      refine ⟨rfl, rfl, finds.reports between.silent, (between.next finds again split).1, ?_, ?_⟩
      · change Spaced tokens after.tape.ahead
        rw [rest_eq]
        exact further
      · intro others
        change _ ∨ Heads isWhite after.tape.ahead
        rw [rest_eq]
        exact .inr (apart_behind others)

/-- Behind the last token the input ends. -/
theorem Spacing.ends (spacing : lexer.Spacing []) :
    lexer.next.1.token.isEof = true ∧ lexer.next.1.diagnostics = #[] := by
  obtain ⟨between, spaced, -⟩ := spacing
  obtain ⟨errors, lexeme, after, finds, next_eq⟩ := exists_finds between.tidy
  have stretch := between.stretch finds
  generalize lexer.tape.ahead = ahead at spaced stretch
  cases spaced with
  | last white =>
      rw [← List.append_nil ahead] at stretch
      obtain ⟨rfl, rfl⟩ := (stretch.of_space white).of_nil
      rw [next_eq]
      refine ⟨rfl, ?_⟩
      have silent := finds.reports between.silent
      exact Array.toList_eq_nil_iff.mp (List.map_eq_nil_iff.mp silent)

/-- Call by call the tokens are read, and the others are still to come. -/
theorem Spacing.forward {count : Nat} {bytesOf : Nat → List UInt8}
    (spacing : lexer.Spacing ((List.range count).map bytesOf))
    (spelled : ∀ call < count, ∃ before lexeme errors rest,
      Spelling before (bytesOf call) lexeme errors rest) {call : Nat} (within : call ≤ count) :
    (lexer.after call).Spacing ((List.range' call (count - call)).map bytesOf) := by
  induction call with
  | zero =>
      rw [List.range_eq_range'] at spacing
      exact spacing
  | succ call induction =>
      have here := induction (Nat.le_of_lt within)
      have count_eq : count - call = count - (call + 1) + 1 := by omega
      rw [count_eq, List.range'_succ, List.map_cons] at here
      obtain ⟨_, _, _, _, spells⟩ := spelled call within
      exact (here.next spells).2.2.2

/-! ### Two runs -/

/-- The errors of a call that are reported from the start of its token on. -/
def ReportsInside (lexer : Lexer Buffer) (inside : List Diagnostic) : Prop :=
  ∃ begun, Skips lexer begun ∧ begun.tape.cursor = lexer.next.2.tape.token ∧
    lexer.next.1.diagnostics.toList = begun.reported.toList ++ inside

/-- The bytes of the token that a call after so many others reads. -/
def tokenBytes (lexer : Lexer Buffer) (calls : Nat) : List UInt8 :=
  (lexer.after (calls + 1)).tape.tokenBytes.toList

/-- The token of a call is spelled by its bytes, and the errors inside of it are theirs. -/
theorem Sound.spells {buffered : Lexer Buffer} (sound : buffered.Sound contents)
    (between : (buffered.place contents).Between)
    (flowing : buffered.next.2.tape.stalled = false)
    (token : buffered.next.1.token.isEof = false) :
    ∃ before errors rest inside,
      Spelling before buffered.next.2.tape.tokenBytes.toList
        ⟨buffered.next.1.token.kind, buffered.next.1.token.payload⟩ errors rest ∧
      ReportsInside buffered inside ∧
      inside.map Diagnostic.message = errors.map LexError.message := by
  obtain ⟨next_sound, next_agrees⟩ := sound.next
  obtain ⟨before_flowing, plain_eq⟩ := next_agrees flowing
  obtain ⟨errors, lexeme, after, finds, next_eq⟩ := exists_finds between.tidy
  obtain ⟨reading_eq, after_eq⟩ := Prod.mk.inj (plain_eq.symm.trans next_eq)
  have no_eof : lexeme ≠ .eof := by
    rintro rfl
    rw [reading_eq] at token
    cases token
  have enough : (buffered.place contents).tape.ahead.length < Tape.remaining buffered.tape + 1 := by
    rw [Cursor.length_ahead]
    exact Nat.lt_succ_of_le (Nat.le_of_eq (sound.shows.remaining_eq before_flowing).symm)
  have no_text : (buffered.place contents).mode ≠ .badText := by
    rw [between.normal]
    exact nofun
  obtain ⟨begun, own, starts⟩ := (finds.starts between.tidy no_eof (fun _ => between.parted) sound
    rfl enough flowing).resolve_left fun inside => no_text inside.1
  obtain ⟨inside, reported_eq, messages⟩ := starts.finds.reported
  have bytes_eq : buffered.next.2.tape.tokenBytes.toList = after.tape.pending := by
    rw [next_sound.shows.tokenBytes_eq]
    exact congrArg (fun lexer => lexer.tape.pending) after_eq
  refine ⟨(begun.place contents).tape.passed, own, after.tape.ahead, inside, ?_,
    ⟨begun, starts.skips, ?_, ?_⟩, messages⟩
  · rw [bytes_eq, reading_eq]
    exact starts.spells no_eof
  · exact starts.cursor_eq.trans (congrArg (fun lexer => lexer.tape.token) after_eq).symm
  · rw [reading_eq]
    exact reported_eq

/-- The token that a call reads after others that have read tokens, and the errors inside of it. -/
theorem reading_spells {source : Source} (opens : source.Opens contents) (filename : String)
    (lineWidth size bound : Nat) {call : Nat}
    (tokens : ∀ earlier ≤ call,
      ((opened filename lineWidth source size bound).reading earlier).token.isEof = false)
    (flowing : ((opened filename lineWidth source size bound).after (call + 1)).tape.stalled =
      false) :
    let lexer := opened filename lineWidth source size bound
    ∃ before errors rest inside,
      Spelling before (lexer.tokenBytes call)
        ⟨(lexer.reading call).token.kind, (lexer.reading call).token.payload⟩ errors rest ∧
      (lexer.after call).ReportsInside inside ∧
      inside.map Diagnostic.message = errors.map LexError.message := by
  intro lexer
  have sound : lexer.Sound contents := sound_opened opens filename lineWidth size bound
  have call_flowing := flowing_of_le sound.shows (Nat.le_succ call) flowing
  have between : ((lexer.after call).place contents).Between := by
    rw [← (Prod.mk.inj ((sound.after call).agrees call_flowing).2).2]
    refine between_after fun earlier before => ?_
    rw [← tokens earlier (Nat.le_of_lt before)]
    exact congrArg (fun reading => reading.token.isEof)
      (reading_eq_plain opens filename lineWidth size bound earlier
        (flowing_of_le sound.shows (Nat.succ_le_succ (Nat.le_of_lt before)) flowing)).1
  exact (sound.after call).sound.spells between flowing (tokens call (Nat.le_refl call))

/-- Reading again. So many tokens of a source, for example all of them, are set apart by white
space; then they are read as the same tokens, and behind them the input ends. The errors found again
are, token by token, those that were reported inside of it, and these are errors of the content of
strings. -/
theorem readings_relexed {source again : Source} {contents again_contents : Bytes}
    (opens : source.Opens contents) (again_opens : again.Opens again_contents)
    (filename again_filename : String)
    (lineWidth again_lineWidth size again_size bound again_bound tokens : Nat)
    (earlier : ∀ call < tokens,
      ((opened filename lineWidth source size bound).reading call).token.isEof = false)
    (spaced : Spaced
      ((List.range tokens).map (opened filename lineWidth source size bound).tokenBytes)
      again_contents.toList)
    (flowing : ((opened filename lineWidth source size bound).after tokens).tape.stalled = false)
    (again_flowing : ((opened again_filename again_lineWidth again again_size again_bound).after
      (tokens + 1)).tape.stalled = false) :
    let lexer := opened filename lineWidth source size bound
    let relexer := opened again_filename again_lineWidth again again_size again_bound
    (∀ call < tokens,
      (relexer.reading call).token.kind = (lexer.reading call).token.kind ∧
      (relexer.reading call).token.payload = (lexer.reading call).token.payload ∧
      ∃ inside, (lexer.after call).ReportsInside inside ∧
        (relexer.reading call).diagnostics.toList.map Diagnostic.message =
          inside.map Diagnostic.message ∧
        ∀ diagnostic ∈ inside, (lexer.reading call).token.kind = .text ∧
          ∃ error : LexError, error.IsContent ∧ diagnostic.message = error.message) ∧
    (relexer.reading tokens).token.isEof = true ∧ (relexer.reading tokens).diagnostics = #[] := by
  intro lexer relexer
  have shows : lexer.tape.Shows contents :=
    (sound_opened opens filename lineWidth size bound).shows
  have again_shows : relexer.tape.Shows again_contents :=
    (sound_opened again_opens again_filename again_lineWidth again_size again_bound).shows
  have again_eq {call : Nat} (within : call ≤ tokens) :
      (plain again_filename again_lineWidth again_contents).reading call = relexer.reading call :=
    (reading_eq_plain again_opens again_filename again_lineWidth again_size again_bound call
      (flowing_of_le again_shows (Nat.succ_le_succ within) again_flowing)).1
  have spells {call : Nat} (before : call < tokens) :
      ∃ passed errors rest inside,
        Spelling passed (lexer.tokenBytes call)
          ⟨(lexer.reading call).token.kind, (lexer.reading call).token.payload⟩ errors rest ∧
        (lexer.after call).ReportsInside inside ∧
        inside.map Diagnostic.message = errors.map LexError.message :=
    reading_spells opens filename lineWidth size bound
      (fun other le => earlier other (Nat.lt_of_le_of_lt le before))
      (flowing_of_le shows before flowing)
  have start : (plain again_filename again_lineWidth again_contents).Spacing
      ((List.range tokens).map lexer.tokenBytes) := by
    refine ⟨between_plain again_filename again_lineWidth again_contents, spaced, fun _ => ?_⟩
    exact .inl (by rintro ⟨_, ⟨⟩, _⟩)
  have spacing {call : Nat} (within : call ≤ tokens) := start.forward (fun other before => by
    obtain ⟨passed, errors, rest, _, spelled, -⟩ := spells before
    exact ⟨passed, _, errors, rest, spelled⟩) within
  constructor
  · intro call before
    have here := spacing (Nat.le_of_lt before)
    have count_eq : tokens - call = tokens - (call + 1) + 1 := by omega
    rw [count_eq, List.range'_succ, List.map_cons] at here
    obtain ⟨_, _, _, inside, spelled, reports, messages⟩ := spells before
    obtain ⟨kind_eq, payload_eq, again_messages, -⟩ := here.next spelled
    rw [← again_eq (Nat.le_of_lt before)]
    refine ⟨kind_eq, payload_eq, inside, reports, again_messages.trans messages.symm, ?_⟩
    intro diagnostic present
    have message_mem : diagnostic.message ∈ inside.map Diagnostic.message :=
      List.mem_map_of_mem present
    rw [messages] at message_mem
    obtain ⟨error, error_mem, message_eq⟩ := List.mem_map.mp message_mem
    obtain ⟨text, content⟩ := spelled.isContent error error_mem
    exact ⟨text, error, content, message_eq.symm⟩
  · have here := spacing (Nat.le_refl tokens)
    rw [Nat.sub_self] at here
    rw [← again_eq (Nat.le_refl tokens)]
    exact here.ends

/-- A stray comma, a string with a bad escape, a comment and a name; then the string and the name
alone, on two lines, from windows of one byte and of three. -/
theorem readings_relexed_badEscape :
    let lexer := opened "a.wast" 0
      (.ofBytes #[0x2c, 0x22, 0x5c, 0x71, 0x22, 0x28, 0x3b, 0x3b, 0x29, 0x24, 0x61]) 1 4096
    let relexer := opened "b.wast" 0
      (.ofBytes #[0x20, 0x22, 0x5c, 0x71, 0x22, 0x0a, 0x24, 0x61]) 3 4096
    (relexer.reading 0).token.payload = (lexer.reading 0).token.payload ∧
      (relexer.reading 1).token.payload = (lexer.reading 1).token.payload ∧
      (relexer.reading 2).token.isEof = true := by
  have bytes_eq : (List.range 2).map (opened "a.wast" 0
      (.ofBytes #[0x2c, 0x22, 0x5c, 0x71, 0x22, 0x28, 0x3b, 0x3b, 0x29, 0x24, 0x61]) 1
        4096).tokenBytes = [[0x22, 0x5c, 0x71, 0x22], [0x24, 0x61]] := by decide +kernel
  have spaced : Spaced [[0x22, 0x5c, 0x71, 0x22], [0x24, 0x61]]
      ([0x20] ++ ([0x22, 0x5c, 0x71, 0x22] ++ ([0x0a] ++ ([0x24, 0x61] ++ [])))) :=
    .token (by decide +kernel) (fun _ => ⟨0x0a, rfl, by decide +kernel⟩)
      (.token (by decide +kernel) (fun none_left => absurd rfl none_left) (.last nofun))
  rw [← bytes_eq] at spaced
  have relexed := readings_relexed
    (Source.opens_ofBytes #[0x2c, 0x22, 0x5c, 0x71, 0x22, 0x28, 0x3b, 0x3b, 0x29, 0x24, 0x61])
    (Source.opens_ofBytes #[0x20, 0x22, 0x5c, 0x71, 0x22, 0x0a, 0x24, 0x61]) "a.wast" "b.wast" 0 0
    1 3 4096 4096 2 (by decide +kernel) spaced (by decide +kernel) (by decide +kernel)
  exact ⟨(relexed.1 0 (by decide)).2.1, (relexed.1 1 (by decide)).2.1, relexed.2.1⟩

end Lexer

end WasmText
