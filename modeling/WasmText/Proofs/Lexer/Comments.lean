import WasmText.Proofs.Lexer.Course
import WasmText.Proofs.Lexer.Stretch

/-!
# Block comments

A block comment is read from the left with a depth that its delimiters raise and lower. It ends
where the depth comes to zero, which is where the grammar of nested comments ends it. Turns jump
from one delimiter or newline to the next and come to the same end.
-/

namespace WasmText

/-- The number of bytes that are read inside of so many block comments until the last of them is
closed. -/
def lengthToClose? (depth : Nat) : List UInt8 → Option Nat
  | [] => none
  | byte :: rest =>
    if byte = Ascii.leftParen ∧ rest.head? = some Ascii.semicolon then
      (lengthToClose? (depth + 1) rest.tail).map (· + 2)
    else if byte = Ascii.semicolon ∧ rest.head? = some Ascii.rightParen then
      if depth = 1 then some 2 else (lengthToClose? (depth - 1) rest.tail).map (· + 2)
    else
      (lengthToClose? depth rest).map (· + 1)
termination_by bytes => bytes.length
decreasing_by
  all_goals
    rw [List.length_cons]
    first
      | exact Nat.lt_succ_self _
      | rw [List.length_tail]
        omega

/-- What may stand between the delimiters of a block comment before the bytes that follow: other
comments, and bytes that begin no delimiter. -/
inductive CommentBody : List UInt8 → List UInt8 → Prop
  | nil {rest} : CommentBody [] rest
  | byte {byte body rest}
      (no_delimiter : ∀ second ∈ (body ++ rest).head?, ¬ IsDelimiter byte second)
      (further : CommentBody body rest) : CommentBody (byte :: body) rest
  | comment {inner body rest}
      (nested : CommentBody inner (Ascii.semicolon :: Ascii.rightParen :: (body ++ rest)))
      (further : CommentBody body rest) :
      CommentBody
        (Ascii.leftParen :: Ascii.semicolon ::
          (inner ++ Ascii.semicolon :: Ascii.rightParen :: body)) rest

/-- Comments with their delimiters. -/
inductive Comment : List UInt8 → Prop
  | intro {body} (inside : CommentBody body [Ascii.semicolon, Ascii.rightParen]) :
      Comment (Ascii.leftParen :: Ascii.semicolon ::
        (body ++ [Ascii.semicolon, Ascii.rightParen]))

variable {depth : Nat} {byte : UInt8} {rest : List UInt8}

/-- Lengths in front of a length that is looked for add up. -/
theorem map_add_map_add (length : Option Nat) (first second : Nat) :
    (length.map (· + first)).map (· + second) = length.map (· + (second + first)) := by
  rw [Option.map_map]
  refine congrArg length.map (funext fun last => ?_)
  rw [Function.comp_apply, Nat.add_assoc, Nat.add_comm first]

theorem lengthToClose_opens :
    lengthToClose? depth (Ascii.leftParen :: Ascii.semicolon :: rest) =
      (lengthToClose? (depth + 1) rest).map (· + 2) := by
  rw [lengthToClose?, if_pos ⟨rfl, rfl⟩, List.tail_cons]

theorem lengthToClose_last :
    lengthToClose? 1 (Ascii.semicolon :: Ascii.rightParen :: rest) = some 2 := by
  rw [lengthToClose?, if_neg fun both => absurd both.1 (by decide), if_pos ⟨rfl, rfl⟩, if_pos rfl]

theorem lengthToClose_closes :
    lengthToClose? (depth + 2) (Ascii.semicolon :: Ascii.rightParen :: rest) =
      (lengthToClose? (depth + 1) rest).map (· + 2) := by
  rw [lengthToClose?, if_neg fun both => absurd both.1 (by decide), if_pos ⟨rfl, rfl⟩,
    if_neg (by omega), List.tail_cons]
  rfl

theorem lengthToClose_skip (no_delimiter : ∀ second ∈ rest.head?, ¬ IsDelimiter byte second) :
    lengthToClose? depth (byte :: rest) = (lengthToClose? depth rest).map (· + 1) := by
  rw [lengthToClose?, if_neg fun both => no_delimiter _ both.2 (.inl ⟨both.1, rfl⟩),
    if_neg fun both => no_delimiter _ both.2 (.inr ⟨both.1, rfl⟩)]

/-- What stands between delimiters leads to the same depth. -/
theorem CommentBody.lengthToClose_eq {body : List UInt8} (inside : CommentBody body rest) :
    lengthToClose? (depth + 1) (body ++ rest) =
      (lengthToClose? (depth + 1) rest).map (· + body.length) := by
  induction inside generalizing depth with
  | nil => simp
  | byte no_delimiter _ induction =>
      rw [List.cons_append, lengthToClose_skip no_delimiter, induction, Option.map_map]
      rfl
  | @comment inner body rest _ _ nested_eq further_eq =>
      have whole : Ascii.leftParen :: Ascii.semicolon ::
          (inner ++ Ascii.semicolon :: Ascii.rightParen :: body) ++ rest =
            Ascii.leftParen :: Ascii.semicolon ::
              (inner ++ Ascii.semicolon :: Ascii.rightParen :: (body ++ rest)) := by
        simp
      have length_eq : 2 + inner.length + 2 + body.length =
          (Ascii.leftParen :: Ascii.semicolon ::
            (inner ++ Ascii.semicolon :: Ascii.rightParen :: body)).length := by
        simp only [List.length_cons, List.length_append]
        omega
      rw [whole, lengthToClose_opens, nested_eq, lengthToClose_closes, further_eq, map_add_map_add,
        map_add_map_add, map_add_map_add, length_eq]

/-- Of what follows only the first byte counts. -/
theorem CommentBody.of_head {body other : List UInt8} (inside : CommentBody body rest)
    (same : other.head? = rest.head?) : CommentBody body other := by
  induction inside generalizing other with
  | nil => exact .nil
  | byte no_delimiter _ induction =>
      refine .byte ?_ (induction same)
      rw [List.head?_append, same, ← List.head?_append]
      exact no_delimiter
  | comment _ _ nested_induction further_induction =>
      exact .comment (nested_induction rfl) (further_induction same)

/-- A byte and the one after it open a comment, close one or delimit nothing. -/
theorem delimiter_cases (byte : UInt8) (rest : List UInt8) :
    (∃ tail, byte = Ascii.leftParen ∧ rest = Ascii.semicolon :: tail) ∨
      (∃ tail, byte = Ascii.semicolon ∧ rest = Ascii.rightParen :: tail) ∨
        ∀ second ∈ rest.head?, ¬ IsDelimiter byte second := by
  by_cases opens : byte = Ascii.leftParen ∧ rest.head? = some Ascii.semicolon
  · obtain ⟨tail, rest_eq⟩ := List.head?_eq_some_iff.mp opens.2
    exact .inl ⟨tail, opens.1, rest_eq⟩
  by_cases closes : byte = Ascii.semicolon ∧ rest.head? = some Ascii.rightParen
  · obtain ⟨tail, rest_eq⟩ := List.head?_eq_some_iff.mp closes.2
    exact .inr (.inl ⟨tail, closes.1, rest_eq⟩)
  refine .inr (.inr ?_)
  rintro second head_eq (⟨first_eq, rfl⟩ | ⟨first_eq, rfl⟩)
  · exact opens ⟨first_eq, head_eq⟩
  · exact closes ⟨first_eq, head_eq⟩

/-- What is read inside of so many comments up to where the last of them is closed: what stands
between delimiters, a closing delimiter, and what is read inside of the others. -/
theorem exists_commentBody {bytes : List UInt8} {length : Nat}
    (closed : lengthToClose? (depth + 1) bytes = some length) :
    ∃ body tail, bytes = body ++ Ascii.semicolon :: Ascii.rightParen :: tail ∧
      CommentBody body (Ascii.semicolon :: Ascii.rightParen :: tail) ∧
      (depth = 0 ∧ length = body.length + 2 ∨
        ∃ outer more, depth = outer + 1 ∧ lengthToClose? (outer + 1) tail = some more ∧
          length = body.length + 2 + more) := by
  generalize size_eq : bytes.length = size
  induction size using Nat.strong_induction_on generalizing depth bytes length with
  | _ size induction =>
      subst size_eq
      cases bytes with
      | nil =>
          rw [lengthToClose?] at closed
          cases closed
      | cons byte rest =>
          rcases delimiter_cases byte rest with ⟨tail, rfl, rfl⟩ | ⟨tail, rfl, rfl⟩ | no_delimiter
          · -- Behind an inner comment the rest of the body is read at the depth from before.
            rw [lengthToClose_opens, Option.map_eq_some_iff] at closed
            obtain ⟨length, closed, rfl⟩ := closed
            obtain ⟨inner, behind, rfl, nested, ⟨zero, -⟩ | ⟨outer, more, same, behind_eq, rfl⟩⟩ :=
              induction _ (by simp only [List.length_cons]; omega) closed rfl
            · cases zero
            cases same
            obtain ⟨body, last, rfl, further, ends⟩ := induction _
              (by simp only [List.length_cons, List.length_append]; omega) behind_eq rfl
            refine ⟨Ascii.leftParen :: Ascii.semicolon ::
              (inner ++ Ascii.semicolon :: Ascii.rightParen :: body), last, by simp,
              .comment nested further, ?_⟩
            refine ends.imp (fun ⟨zero, more_eq⟩ => ⟨zero, ?_⟩)
              fun ⟨outer, others, depth_eq, last_eq, more_eq⟩ =>
                ⟨outer, others, depth_eq, last_eq, ?_⟩
            all_goals
              simp only [List.length_cons, List.length_append]
              omega
          · cases depth with
            | zero =>
                rw [lengthToClose_last] at closed
                cases closed
                exact ⟨[], tail, rfl, .nil, .inl ⟨rfl, rfl⟩⟩
            | succ outer =>
                rw [lengthToClose_closes, Option.map_eq_some_iff] at closed
                obtain ⟨more, closed, rfl⟩ := closed
                exact ⟨[], tail, rfl, .nil, .inr ⟨outer, more, rfl, closed, Nat.add_comm _ _⟩⟩
          · rw [lengthToClose_skip no_delimiter, Option.map_eq_some_iff] at closed
            obtain ⟨length, closed, rfl⟩ := closed
            obtain ⟨body, tail, rfl, inside, ends⟩ :=
              induction _ (Nat.lt_succ_self _) closed rfl
            refine ⟨byte :: body, tail, rfl, .byte no_delimiter inside, ?_⟩
            refine ends.imp (fun ⟨zero, length_eq⟩ => ⟨zero, ?_⟩)
              fun ⟨outer, more, depth_eq, tail_eq, length_eq⟩ =>
                ⟨outer, more, depth_eq, tail_eq, ?_⟩
            all_goals
              rw [List.length_cons]
              omega

/-- The bytes behind a comment's opening that belong to it are as many as are read until the depth
is zero. -/
theorem comment_iff {bytes front : List UInt8} (begins : front <+: bytes) :
    Comment (Ascii.leftParen :: Ascii.semicolon :: front) ↔
      lengthToClose? 1 bytes = some front.length := by
  obtain ⟨more, rfl⟩ := begins
  constructor
  · rintro ⟨inside⟩
    rename_i body
    have longer : CommentBody body (Ascii.semicolon :: Ascii.rightParen :: more) :=
      inside.of_head rfl
    have reads : lengthToClose? 1 _ = _ := longer.lengthToClose_eq
    rw [lengthToClose_last] at reads
    rw [List.append_assoc, List.length_append]
    exact reads.trans (congrArg some (Nat.add_comm _ _))
  · intro closed
    obtain ⟨body, tail, whole, inside, ⟨-, length_eq⟩ | ⟨outer, _, zero, -⟩⟩ :=
      exists_commentBody closed
    · have front_eq : front = body ++ [Ascii.semicolon, Ascii.rightParen] := by
        have split : body ++ Ascii.semicolon :: Ascii.rightParen :: tail =
            body ++ [Ascii.semicolon, Ascii.rightParen] ++ tail := by simp
        rw [split] at whole
        exact (List.append_inj whole (by simpa using length_eq)).1
      rw [front_eq]
      exact .intro (inside.of_head rfl)
    · cases zero

/-- A comment at the front of bytes is as long as its depth says. -/
theorem Comment.exists_length {front : List UInt8} (comment : Comment front)
    (begins : front <+: Ascii.leftParen :: Ascii.semicolon :: rest) :
    ∃ behind, front = Ascii.leftParen :: Ascii.semicolon :: behind ∧
      lengthToClose? 1 rest = some behind.length := by
  obtain ⟨inside⟩ := comment
  obtain ⟨-, begins⟩ := List.cons_prefix_cons.mp begins
  obtain ⟨-, begins⟩ := List.cons_prefix_cons.mp begins
  exact ⟨_, rfl, (comment_iff begins).mp (.intro inside)⟩

/-- Among the beginnings of the bytes from an opening delimiter on one is a comment. -/
theorem comment_iff_take {front : List UInt8} {length : Nat}
    (closed : lengthToClose? 1 rest = some length)
    (begins : front <+: Ascii.leftParen :: Ascii.semicolon :: rest) :
    Comment front ↔
      front = (Ascii.leftParen :: Ascii.semicolon :: rest).take (length + 2) := by
  constructor
  · intro comment
    obtain ⟨behind, rfl, length_eq⟩ := comment.exists_length begins
    obtain rfl : length = behind.length := Option.some.inj (closed.symm.trans length_eq)
    exact List.prefix_iff_eq_take.mp begins
  · rintro rfl
    have within : length ≤ rest.length := by
      obtain ⟨body, tail, rfl, -, ⟨-, rfl⟩ | ⟨_, _, zero, -⟩⟩ := exists_commentBody closed
      · simp only [List.length_append, List.length_cons]
        omega
      · cases zero
    refine (comment_iff (List.take_prefix length rest)).mpr ?_
    rw [closed, List.length_take, Nat.min_eq_left within]

/-! ### Pieces of comments -/

/-- Bytes at which a turn does not stop stand between delimiters. -/
theorem CommentBody.run {run body : List UInt8}
    (inside : ∀ byte ∈ run, stopsBlockComment byte = false) (further : CommentBody body rest) :
    CommentBody (run ++ body) rest := by
  induction run with
  | nil => exact further
  | cons byte run induction =>
      obtain ⟨first_inside, others_inside⟩ := List.forall_mem_cons.mp inside
      refine .byte ?_ (induction others_inside)
      rintro second - (⟨rfl, -⟩ | ⟨rfl, -⟩)
      all_goals exact absurd first_inside (by decide)

theorem lengthToClose_run {run : List UInt8}
    (inside : ∀ byte ∈ run, stopsBlockComment byte = false) :
    lengthToClose? (depth + 1) (run ++ rest) =
      (lengthToClose? (depth + 1) rest).map (· + run.length) := by
  have body : CommentBody (run ++ []) rest := .run inside .nil
  rw [List.append_nil] at body
  exact body.lengthToClose_eq

namespace Piece

variable {token : List UInt8} {piece : Piece}

/-- What a piece inside of comments comes to: the end of the input, the end of the outermost
comment, or bytes inside of as many comments as it says. -/
inductive Reads (depth : Nat) (piece : Piece) (rest : List UInt8) : Prop
  | unclosed (error_eq : piece.error = some .unterminatedBlockComment)
      (lexeme_eq : piece.lexeme = some .eof)
      (none_eq : lengthToClose? depth (piece.taken ++ rest) = none)
  | closed (error_eq : piece.error = none) (lexeme_eq : piece.lexeme = none)
      (mode_eq : piece.mode = .normal)
      (some_eq : lengthToClose? depth (piece.taken ++ rest) = some piece.taken.length)
  | goesOn {inner : Nat} (error_eq : piece.error = none) (lexeme_eq : piece.lexeme = none)
      (mode_eq : piece.mode = .blockComment) (nesting_eq : piece.nesting = inner + 1)
      (further_eq : lengthToClose? depth (piece.taken ++ rest) =
        (lengthToClose? (inner + 1) rest).map (· + piece.taken.length))

theorem Fits.reads (fits : Fits (depth + 1) token .blockComment piece rest) :
    Reads (depth + 1) piece rest := by
  cases fits with
  | @blockAtEnd run inside =>
      refine .unclosed rfl rfl ?_
      rw [lengthToClose_run inside, lengthToClose?]
      rfl
  | @blockAtNewline run _ inside =>
      have no_delimiter : ∀ second ∈ ([] ++ rest).head?, ¬ IsDelimiter Ascii.newline second := by
        rintro second - (⟨same, -⟩ | ⟨same, -⟩)
        all_goals exact absurd same (by decide)
      have body : CommentBody (run ++ [Ascii.newline]) rest := .run inside (.byte no_delimiter .nil)
      exact .goesOn rfl rfl rfl rfl body.lengthToClose_eq
  | @nestedOpening run _ inside =>
      refine .goesOn rfl rfl rfl rfl ?_
      change lengthToClose? (depth + 1) (run ++ [Ascii.leftParen, Ascii.semicolon] ++ rest) = _
      rw [List.append_assoc, lengthToClose_run inside]
      change ((lengthToClose? _ (Ascii.leftParen :: Ascii.semicolon :: rest)).map _) = _
      rw [lengthToClose_opens, map_add_map_add, List.length_append]
      rfl
  | @blockClosing run _ inside =>
      have split : run ++ [Ascii.semicolon, Ascii.rightParen] ++ rest =
          run ++ Ascii.semicolon :: Ascii.rightParen :: rest := by simp
      cases depth with
      | zero =>
          refine .closed rfl rfl rfl ?_
          rw [split, lengthToClose_run inside, lengthToClose_last, List.length_append]
          exact congrArg some (Nat.add_comm _ _)
      | succ inner =>
          refine .goesOn rfl rfl rfl rfl ?_
          rw [split, lengthToClose_run inside, lengthToClose_closes, map_add_map_add,
            List.length_append]
          rfl
  | @undelimiting run byte _ inside on_line no_delimiter =>
      have body : CommentBody (run ++ [byte]) rest := .run inside (.byte no_delimiter .nil)
      exact .goesOn rfl rfl rfl rfl body.lengthToClose_eq

end Piece

/-! ### Turns of comments -/

namespace Lexer

variable {lexer : Lexer Cursor}

/-- A lexer passes so many bytes without an error. -/
structure Silent (before after : Lexer Cursor) (length : Nat) : Prop where
  /-- Nothing is completed on the way. -/
  passes : Passes before after
  /-- The bookkeeping stays right. -/
  tidy : after.Tidy
  /-- The input goes on -/
  running : after.finished = false
  /-- with the same bytes, -/
  bytes_eq : after.tape.bytes = before.tape.bytes
  /-- further on. -/
  offset_eq : after.tape.offset = before.tape.offset + length
  /-- Nothing is reported. -/
  reported_eq : after.reported = before.reported

theorem Silent.refl (tidy : lexer.Tidy) (running : lexer.finished = false) :
    Silent lexer lexer 0 :=
  ⟨.refl lexer, tidy, running, rfl, rfl, rfl⟩

/-- The newlines that are passed are counted. -/
theorem Silent.line_eq {last : Lexer Cursor} {length : Nat} (passed : Silent lexer last length)
    (tidy : lexer.Tidy) :
    last.line = lexer.line + (lexer.tape.ahead.take length).count Ascii.newline := by
  have split : last.tape.passed = lexer.tape.passed ++ lexer.tape.ahead.take length := by
    rw [Cursor.passed, passed.bytes_eq, passed.offset_eq, List.take_add]
    rfl
  rw [passed.tidy.line_eq, tidy.line_eq, split, Location.lineAfter, Location.lineAfter,
    List.count_append]
  omega

/-- A turn without an error, and what is passed behind it. -/
theorem Silent.turn {last : Lexer Cursor} {length : Nat} (running : lexer.finished = false)
    (skips : lexer.piece.lexeme = none) (no_error : lexer.piece.error = none)
    (further : Silent (lexer.take lexer.piece) last length) :
    Silent lexer last (length + lexer.piece.taken.length) where
  passes := .turn running skips further.passes
  tidy := further.tidy
  running := further.running
  bytes_eq := further.bytes_eq
  offset_eq := by
    rw [further.offset_eq, Nat.add_comm length, ← Nat.add_assoc]
    rfl
  reported_eq := by
    rw [further.reported_eq]
    change lexer.piece.error.elim lexer.reported _ = _
    rw [no_error]
    rfl

/-- A lexer inside of comments reads to where the last of them is closed, or to the end. -/
theorem run_comment (tidy : lexer.Tidy) (running : lexer.finished = false)
    (mode : lexer.mode = .blockComment) {depth : Nat} (nesting : lexer.nesting = depth + 1) :
    (∃ length last, lengthToClose? (depth + 1) lexer.tape.ahead = some length ∧
      Silent lexer last length ∧ last.mode = .normal) ∨
    lengthToClose? (depth + 1) lexer.tape.ahead = none ∧
      ∃ length last, Silent lexer last length ∧ last.piece.lexeme = some .eof ∧
        last.piece.error = some .unterminatedBlockComment := by
  generalize size_eq : lexer.tape.ahead.length = size
  induction size using Nat.strong_induction_on generalizing lexer depth with
  | _ size induction =>
      subst size_eq
      obtain ⟨rest, ahead_eq, fits⟩ := lexer.exists_rest
      rw [mode, nesting] at fits
      rw [ahead_eq]
      cases fits.reads with
      | unclosed error_eq lexeme_eq none_eq =>
          exact .inr ⟨none_eq, 0, lexer, .refl tidy running, lexeme_eq, error_eq⟩
      | closed error_eq lexeme_eq mode_eq some_eq =>
          have next_running := running_take running (goes_on_of_skips lexeme_eq)
          have passed := Silent.turn running lexeme_eq error_eq (.refl tidy.take next_running)
          rw [Nat.zero_add] at passed
          exact .inl ⟨_, _, some_eq, passed, mode_eq⟩
      | goesOn error_eq lexeme_eq mode_eq nesting_eq further_eq =>
          have goes_on := goes_on_of_skips lexeme_eq
          have next_running := running_take running goes_on
          rw [further_eq]
          rcases induction _ (length_ahead_take_lt goes_on) tidy.take next_running mode_eq
            nesting_eq rfl with ⟨length, last, some_eq, further, normal⟩ |
              ⟨none_eq, length, last, further, completes⟩
          · rw [ahead_take ahead_eq] at some_eq
            rw [some_eq]
            exact .inl ⟨_, last, rfl, further.turn running lexeme_eq error_eq, normal⟩
          · rw [ahead_take ahead_eq] at none_eq
            rw [none_eq]
            exact .inr ⟨rfl, _, last, further.turn running lexeme_eq error_eq, completes⟩

/-- The turn that opens a block comment. -/
theorem piece_opening (normal : lexer.mode = .normal) {rest : List UInt8}
    (opens : lexer.tape.ahead = Ascii.leftParen :: Ascii.semicolon :: rest) :
    lexer.piece =
      { taken := [Ascii.leftParen, Ascii.semicolon], mode := .blockComment, nesting := 1 } := by
  rw [piece, normal, opens]
  rfl

/-- A comment is passed from its opening on, or the input ends in the middle of it. -/
theorem run_opening (tidy : lexer.Tidy) (running : lexer.finished = false)
    (normal : lexer.mode = .normal) {rest : List UInt8}
    (opens : lexer.tape.ahead = Ascii.leftParen :: Ascii.semicolon :: rest) :
    (∃ length last, lengthToClose? 1 rest = some length ∧ Silent lexer last (length + 2) ∧
      last.mode = .normal) ∨
    lengthToClose? 1 rest = none ∧
      ∃ length last, Silent lexer last length ∧ last.piece.lexeme = some .eof ∧
        last.piece.error = some .unterminatedBlockComment := by
  have shape := piece_opening normal opens
  have skips : lexer.piece.lexeme = none := by rw [shape]
  have no_error : lexer.piece.error = none := by rw [shape]
  have ahead_eq : (lexer.take lexer.piece).tape.ahead = rest :=
    ahead_take (by rw [opens, shape]; rfl)
  have further := run_comment tidy.take (running_take running (goes_on_of_skips skips))
    (congrArg Piece.mode shape) (congrArg Piece.nesting shape)
  rw [ahead_eq] at further
  rcases further with ⟨length, last, closed, passed, mode⟩ |
    ⟨unclosed, length, last, passed, completes⟩
  · have whole := passed.turn running skips no_error
    rw [shape] at whole
    exact .inl ⟨length, last, closed, whole, mode⟩
  · exact .inr ⟨unclosed, _, last, passed.turn running skips no_error, completes⟩

/-! ### Comments of a source -/

variable {contents : Bytes} {begun : Lexer Buffer}

/-- A call passes a comment of so many bytes that begins where one of its turns does. -/
structure PassesComment (contents : Bytes) (begun : Lexer Buffer) (length : Nat)
    (after : Lexer Buffer) : Prop where
  /-- Nothing is completed on the way to -/
  skips : Skips begun after
  /-- where anything may follow, -/
  mode : after.mode = .normal
  /-- the input going on, -/
  running : after.finished = false
  /-- right behind the comment. -/
  cursor : after.tape.cursor = begun.tape.cursor + length
  /-- The newlines in the comment are counted. -/
  line : after.line = begun.line +
    ((contents.toList.drop begun.tape.cursor).take length).count Ascii.newline
  /-- No error is reported. -/
  reported : after.reported.map Diagnostic.bare = begun.reported.map Diagnostic.bare
  /-- Among the beginnings of what is ahead, the bytes passed are the one that is a comment. -/
  comment : ∀ front, front <+: contents.toList.drop begun.tape.cursor →
    (Comment front ↔ front = (contents.toList.drop begun.tape.cursor).take length)

/-- The input ends in the middle of a comment, and so does what a lexer reads. -/
structure LosesComment (contents : Bytes) (begun : Lexer Buffer) (reading : Nat → Reading) :
    Prop where
  /-- The call returns the end of the input. -/
  token : (reading 0).token.isEof = true
  /-- One error is reported. -/
  diagnostics : ∃ diagnostic, (reading 0).bare.diagnostics =
    (begun.reported.map Diagnostic.bare).push diagnostic ∧
      diagnostic.message = "unterminated block comment"
  /-- Every later call returns the end of the input again, without any errors. -/
  stays : ∀ later, 0 < later →
    (reading later).token.isEof = true ∧ (reading later).diagnostics = #[]
  /-- No beginning of what is ahead is a comment. -/
  no_comment : ∀ front, front <+: contents.toList.drop begun.tape.cursor → ¬ Comment front

/-- Block comments are passed by depth. -/
theorem comments_by_depth {source : Source} (reads : source.contents = contents)
    (unread : source.position = 0) (filename : String) (lineWidth size bound calls : Nat)
    (flowing : ((opened filename lineWidth source size bound).after (calls + 1)).tape.stalled =
      false)
    (skips : Skips ((opened filename lineWidth source size bound).after calls) begun)
    (running : begun.finished = false) (normal : begun.mode = .normal)
    (first : contents[begun.tape.cursor]? = some Ascii.leftParen)
    (second : contents[begun.tape.cursor + 1]? = some Ascii.semicolon) :
    let lexer := opened filename lineWidth source size bound
    match lengthToClose? 1 (contents.toList.drop (begun.tape.cursor + 2)) with
    | some length => ∃ after, PassesComment contents begun (length + 2) after
    | none => LosesComment contents begun fun later => lexer.reading (calls + later) := by
  intro lexer
  have underway := underway_opened reads unread flowing skips
  have tidy := underway.tidy running
  have ahead_eq := ahead_bare first
  have inside : begun.tape.cursor + 1 < contents.toList.length :=
    (Array.getElem?_eq_some_iff.mp second).1
  have opens : contents.toList.drop begun.tape.cursor = Ascii.leftParen :: Ascii.semicolon ::
      contents.toList.drop (begun.tape.cursor + 2) := by
    have second_eq : contents.toList[begun.tape.cursor + 1] = Ascii.semicolon :=
      (Array.getElem?_eq_some_iff.mp second).2
    rw [List.drop_eq_getElem_cons inside, second_eq] at ahead_eq
    exact ahead_eq
  rcases run_opening tidy running normal opens with
    ⟨length, last, closed, passed, last_normal⟩ | ⟨unclosed, length, last, passed, completes, error⟩
  · rw [closed]
    obtain ⟨after, after_skips, rfl⟩ := underway.passes passed.passes
    refine ⟨after, after_skips, last_normal, passed.running, passed.offset_eq,
      passed.line_eq tidy, passed.reported_eq, fun front begins => ?_⟩
    rw [opens] at begins ⊢
    exact comment_iff_take closed begins
  · rw [unclosed]
    obtain ⟨near, near_skips, rfl⟩ := underway.passes passed.passes
    have reading_eq := (underway.skips near_skips).reading_eq passed.running completes
    have eof : (lexer.reading calls).token.isEof = true :=
      congrArg (fun reading => reading.token.isEof) reading_eq
    have ready := ready_opened reads unread filename lineWidth size bound
    refine ⟨eof, ?_, fun later positive => ?_, fun front begins comment => ?_⟩
    · refine ⟨(near.bare contents).begun.diagnostic .unterminatedBlockComment
        (near.bare contents).tape.offset
        ((near.bare contents).tape.offset + (near.bare contents).piece.taken.length), ?_, rfl⟩
      have reported_eq := reported_take (near.bare contents)
      rw [error, passed.reported_eq] at reported_eq
      rw [Nat.add_zero, reading_eq]
      exact Array.toList_inj.mp (reported_eq.trans Array.toList_push.symm)
    · exact ready.reads_eof (Nat.lt_add_of_pos_right positive) eof
    · rw [opens] at begins
      obtain ⟨behind, -, closed⟩ := comment.exists_length begins
      cases unclosed.symm.trans closed

/-- A comment with another comment in it, from a window of one byte. -/
theorem comments_by_depth_nested :
    let contents := "(;\n(;;);)x".toUTF8.data
    let lexer := opened "a.wast" 0 (.ofBytes contents) 1 4096
    ∃ after, PassesComment contents lexer 9 after := by
  intro contents lexer
  have ahead_eq : contents.toList.drop (lexer.tape.cursor + 2) =
      Ascii.newline :: Ascii.leftParen :: Ascii.semicolon :: Ascii.semicolon :: Ascii.rightParen ::
        Ascii.semicolon :: Ascii.rightParen :: [0x78] := by decide
  have closed : lengthToClose? 1 (Ascii.newline :: Ascii.leftParen :: Ascii.semicolon ::
      Ascii.semicolon :: Ascii.rightParen :: Ascii.semicolon :: Ascii.rightParen :: [0x78]) =
        some 7 := by
    rw [lengthToClose_skip, lengthToClose_opens, lengthToClose_closes, lengthToClose_last]
    · rfl
    · rintro second - (⟨same, -⟩ | ⟨same, -⟩)
      all_goals exact absurd same (by decide)
  have reads : (Source.ofBytes contents).contents = contents := rfl
  have passes := comments_by_depth reads rfl "a.wast" 0 1 4096 0 (by decide +kernel) (.refl lexer)
    rfl rfl (by decide) (by decide)
  dsimp only at passes
  rw [ahead_eq, closed] at passes
  exact passes

end Lexer

end WasmText
