import WasmText.Diagnostic.SourceLine
import WasmText.Proofs.Source.Pieces
import WasmText.Proofs.Source.Reading

/-!
# Searching a source that never fails

A search of a file in pieces ends where a search of the same bytes in memory does, and it leaves the
position of the next read alone. So a source line is the same whatever kind of source it is looked
up in, however much of the source has been read.
-/

namespace WasmText

namespace File

/-- A search goes on from piece to piece. -/
theorem search_of_request {σ : Type} (visitor : Visitor σ) (base : Nat) (state : σ)
    {file after : File} {piece : Bytes}
    (requested : file.request searchChunk = (.ok piece, after)) :
    file.search visitor base state =
      if piece.size = 0 then
        (.ok (.exhausted base), after)
      else
        match visitor base state piece with
        | .error offset => (.ok (.found offset), after)
        | .ok next => after.search visitor (base + piece.size) next := by
  rw [search]
  split
  · rename_i error moved refused
    rw [requested] at refused
    cases refused
  · rename_i delivered moved outcome
    rw [requested] at outcome
    cases outcome
    rfl

/-- The pieces in which a willing file shows its bytes make no difference to a visitor. -/
theorem search_of_willing {σ : Type} {visitor : Visitor σ} {bytewise : ByteVisitor σ}
    {Reached : Nat → σ → Prop} (follows : visitor.Follows bytewise Reached) {base : Nat} {state : σ}
    (reached : Reached base state) {file : File} (willing : file.Willing) :
    ∃ after, file.search visitor base state =
        (.ok (bytewise.verdict file.contents file.position (base, state)), after) ∧
      file.Same after := by
  induction base, state, file using File.search.induct visitor with
  | case1 base state file error after refused =>
      obtain ⟨piece, moved, delivered⟩ := request_of_willing searchChunk willing
      rw [refused] at delivered
      cases delivered
  | case2 base state file piece after requested empty =>
      obtain ⟨-, -, -, at_end⟩ := request_ok requested
      refine ⟨after, ?_, same_of_request requested⟩
      rw [search_of_request visitor base state requested, if_pos empty, ByteVisitor.verdict,
        bytewise.visitAll_of_size_le (at_end empty (by decide))]
  | case3 base state file piece after requested nonempty smaller offset found =>
      obtain ⟨piece_eq, -, -, -⟩ := request_ok requested
      refine ⟨after, ?_, same_of_request requested⟩
      rw [search_of_request visitor base state requested, if_neg nonempty, ByteVisitor.verdict,
        bytewise.visitAll_split file.contents (Nat.le_add_right _ piece.size), ← piece_eq,
        follows.visitAll_eq reached nonempty, found]
      rfl
  | case4 base state file piece after requested nonempty smaller next visited induction =>
      obtain ⟨piece_eq, -, after_position, -⟩ := request_ok requested
      have same := same_of_request requested
      obtain ⟨final, searched, final_same⟩ :=
        induction (follows.reached_of_ok reached nonempty visited) (same.willing willing)
      refine ⟨final, ?_, same.trans final_same⟩
      rw [search_of_request visitor base state requested, if_neg nonempty, visited]
      simp only
      rw [searched, same.contents, after_position, ByteVisitor.verdict, ByteVisitor.verdict,
        bytewise.visitAll_split file.contents (Nat.le_add_right file.position piece.size),
        ← piece_eq, follows.visitAll_eq reached nonempty, visited]
      rfl

end File

namespace Search

variable {α β : Type} {contents : Bytes}

/-- A query ends alike on every source that serves the contents, wherever its reader is, and moves
no reader. -/
def Answers (contents : Bytes) (query : Search α) (outcome : Except SourceError α) : Prop :=
  ∀ source : Source, source.Serves contents →
    ∃ after, query.run source = (outcome, after) ∧
      after.Serves contents ∧ after.position = source.position

theorem answers_pure (answer : α) : Answers contents (pure answer) (.ok answer) :=
  fun source serves => ⟨source, rfl, serves, rfl⟩

theorem answers_throw (error : SourceError) :
    Answers contents (throw error : Search α) (.error error) :=
  fun source serves => ⟨source, rfl, serves, rfl⟩

theorem Answers.bind {query : Search α} {next : α → Search β} {answer : α}
    {outcome : Except SourceError β} (first : Answers contents query (.ok answer))
    (second : Answers contents (next answer) outcome) :
    Answers contents (query >>= next) outcome := by
  intro source serves
  obtain ⟨middle, first_run, middle_serves, middle_position⟩ := first source serves
  obtain ⟨after, second_run, after_serves, after_position⟩ := second middle middle_serves
  refine ⟨after, ?_, after_serves, after_position.trans middle_position⟩
  rw [ExceptT.run_bind]
  simp only [Bind.bind, StateT.bind, first_run]
  exact second_run

theorem Answers.bind_error {query : Search α} (next : α → Search β) {error : SourceError}
    (first : Answers contents query (.error error)) :
    Answers contents (query >>= next) (.error error) := by
  intro source serves
  obtain ⟨after, first_run, after_serves, after_position⟩ := first source serves
  refine ⟨after, ?_, after_serves, after_position⟩
  rw [ExceptT.run_bind]
  simp only [Bind.bind, StateT.bind, first_run]
  rfl

/-- A query has one outcome for all sources that serve the contents, and what it answers is good. -/
def Steady (contents : Bytes) (query : Search α) (Good : α → Prop) : Prop :=
  ∃ outcome, Answers contents query outcome ∧ ∀ answer, outcome = .ok answer → Good answer

theorem steady_pure {Good : α → Prop} {answer : α} (good : Good answer) :
    Steady contents (pure answer) Good := by
  refine ⟨.ok answer, answers_pure answer, ?_⟩
  intro same same_eq
  cases same_eq
  exact good

theorem steady_throw (error : SourceError) (Good : α → Prop) :
    Steady contents (throw error) Good :=
  ⟨.error error, answers_throw error, fun _ absurd => nomatch absurd⟩

theorem Steady.bind {query : Search α} {next : α → Search β} {Good : α → Prop}
    {Better : β → Prop} (first : Steady contents query Good)
    (second : ∀ answer, Good answer → Steady contents (next answer) Better) :
    Steady contents (query >>= next) Better := by
  obtain ⟨outcome, answers, good⟩ := first
  cases outcome with
  | error error => exact ⟨.error error, answers.bind_error next, fun _ absurd => nomatch absurd⟩
  | ok answer =>
      obtain ⟨last, last_answers, better⟩ := second answer (good answer rfl)
      exact ⟨last, answers.bind last_answers, better⟩

end Search

namespace Source

variable {contents : Bytes}

/-- A file that is moved for an action and put back serves what it served. -/
theorem visiting_of_willing {α : Type} {start : Nat} (action : File → Except SystemError α × File)
    {opened after : File} {answer : α} (addressable : start < File.offsetBound)
    (acted : action { opened with position := start } = (.ok answer, after)) :
    visiting start action opened =
      (.ok answer, .file { after with position := opened.position }) := by
  simp only [visiting, File.restoring, File.seek, if_pos addressable, acted]
  rfl

/-- Bytes in memory are one piece. -/
theorem search_memory {σ : Type} {visitor : Visitor σ} {bytewise : ByteVisitor σ}
    {Reached : Nat → σ → Prop} (follows : visitor.Follows bytewise Reached) {state : σ} {start : Nat}
    (reached : Reached start state) (position : Nat) :
    search visitor state start (.memory contents position) =
      (.ok (bytewise.verdict contents (min start contents.size) (min start contents.size, state)),
        .memory contents position) := by
  rw [search, ByteVisitor.verdict]
  by_cases within : start < contents.size
  · have size_eq : (contents.extract start contents.size).size = contents.size - start := by
      rw [Array.size_extract, Nat.min_self]
    rw [Nat.min_eq_left (Nat.le_of_lt within), ← bytewise.visitAll_extract,
      follows.visitAll_eq reached (by omega), size_eq,
      Nat.add_sub_cancel' (Nat.le_of_lt within)]
    cases visitor start state (contents.extract start contents.size) <;> rfl
  · rw [Nat.min_eq_right (Nat.le_of_not_lt within),
      bytewise.visitAll_of_size_le (Nat.le_refl _),
      Array.extract_empty_of_size_le_start (Nat.le_refl _)]
    obtain ⟨next, passed⟩ := follows.empty contents.size state
    rw [passed]

theorem answers_search {σ : Type} {visitor : Visitor σ} {bytewise : ByteVisitor σ}
    {Reached : Nat → σ → Prop} (follows : visitor.Follows bytewise Reached) {state : σ} {start : Nat}
    (reached : Reached start state) (inside : start ≤ contents.size) :
    Search.Answers contents (search visitor state start)
      (.ok (bytewise.verdict contents start (start, state))) := by
  intro source serves
  cases serves with
  | memory position =>
      refine ⟨.memory contents position, ?_, .memory position, rfl⟩
      change search visitor state start (.memory contents position) = _
      rw [search_memory follows reached, Nat.min_eq_left inside]
  | file opened contents_eq willing addressable =>
      subst contents_eq
      have moved_willing : File.Willing { opened with position := start } := willing
      obtain ⟨after, searched, same⟩ := File.search_of_willing follows reached moved_willing
      refine ⟨.file { after with position := opened.position }, ?_, ?_, rfl⟩
      · change search visitor state start (.file opened) = _
        rw [search, visiting_of_willing _ (by omega) searched]
      · exact .file _ same.contents (same.willing willing) addressable

theorem answers_fetch {first count : Nat} (inside : first + count ≤ contents.size) :
    Search.Answers contents (range.fetch first count)
      (.ok (contents.extract first (first + count))) := by
  intro source serves
  cases serves with
  | memory position =>
      refine ⟨.memory contents position, ?_, .memory position, rfl⟩
      change range.fetch first count (.memory contents position) = _
      rw [range.fetch, if_pos inside]
  | file opened contents_eq willing addressable =>
      subst contents_eq
      have moved_willing : File.Willing { opened with position := first } := willing
      obtain ⟨bytes, after, read⟩ := File.gather_of_willing count #[] moved_willing
      have same := File.same_of_gather read
      obtain ⟨bytes_eq, -⟩ := File.gather_ok read
      rw [Array.empty_append] at bytes_eq
      refine ⟨.file { after with position := opened.position }, ?_, ?_, rfl⟩
      · change visiting first (File.read count) opened = _
        rw [visiting_of_willing (File.read count) (by omega) read, bytes_eq]
      · exact .file _ same.contents (same.willing willing) addressable

theorem answers_range {first count : Nat} (inside : first + count ≤ contents.size) :
    Search.Answers contents (range first count)
      (.ok (contents.extract first (first + count))) := by
  refine (answers_fetch inside).bind ?_
  rw [if_pos (by rw [Array.size_extract]; omega)]
  exact Search.answers_pure _

theorem steady_range {first count : Nat} (inside : first + count ≤ contents.size) :
    Search.Steady contents (range first count) fun _ => True :=
  ⟨_, answers_range inside, fun _ _ => trivial⟩

/-- What a search finds, and where it is exhausted, lies inside the contents if all the visitor can
find at a byte does. -/
theorem steady_search {σ : Type} {visitor : Visitor σ} {bytewise : ByteVisitor σ}
    {Reached : Nat → σ → Prop} (follows : visitor.Follows bytewise Reached) {state : σ}
    {start : Nat} {Good : Nat → Prop} (inside : start ≤ contents.size)
    (reached : Reached start state)
    (good : ∀ offset state byte found, start ≤ offset → offset < contents.size →
      Reached offset state → bytewise offset state byte = .error found → Good found)
    (good_end : Good contents.size) :
    Search.Steady contents (search visitor state start) fun
      | .found offset | .exhausted offset => Good offset := by
  refine ⟨_, answers_search follows reached inside, ?_⟩
  intro answer answer_eq
  cases answer_eq
  unfold ByteVisitor.verdict
  cases visited : bytewise.visitAll contents start (start, state) with
  | error found =>
      obtain ⟨step, last, byte, step_lt, last_reached, seen⟩ :=
        ByteVisitor.visited_of_error follows.keeps reached visited
      exact good _ last byte found (Nat.le_add_right start step) (by omega) last_reached seen
  | ok final =>
      obtain ⟨last, state⟩ := final
      have last_eq := (ByteVisitor.reached_of_ok follows.keeps reached visited).1
      have last_size : last = contents.size := by omega
      simpa only [last_size] using good_end

/-- Where a line starts does not depend on the source, and lies inside of it. -/
theorem steady_lineStart (anchorLine target : Nat) {anchorOffset : Nat}
    (inside : anchorOffset ≤ contents.size) :
    Search.Steady contents (lineStart anchorLine anchorOffset target) (· ≤ contents.size) := by
  unfold lineStart
  split
  · exact Search.steady_throw _ _
  split
  · exact Search.steady_pure inside
  have searched : Search.Steady contents
      (search (lineStartVisitor target) anchorLine anchorOffset) fun
        | .found offset | .exhausted offset => offset ≤ contents.size := by
    refine steady_search (lineStart_follows target) inside trivial ?_ (Nat.le_refl _)
    intro offset state byte found _ offset_lt _ seen
    unfold lineStartBytes at seen
    split at seen
    · split at seen <;> cases seen
      exact offset_lt
    · cases seen
  refine searched.bind ?_
  rintro (offset | offset) bounded
  · exact Search.steady_pure bounded
  · exact Search.steady_throw _ _

/-- Where a line ends does not depend on the source, and is neither before its start nor outside. -/
theorem steady_lineEnd {start : Nat} (inside : start ≤ contents.size) :
    Search.Steady contents (lineEnd start) fun last => start ≤ last ∧ last ≤ contents.size := by
  unfold lineEnd
  have searched : Search.Steady contents (search (lineEndVisitor start) none start) fun
        | .found last | .exhausted last => start ≤ last ∧ last ≤ contents.size := by
    -- A carriage return to be taken off was shown, so the newline is not the first byte.
    refine steady_search (lineEnd_follows start) inside (by simp) ?_ ⟨inside, Nat.le_refl _⟩
    rintro offset previous byte found - offset_lt ⟨started, followed⟩ seen
    unfold lineEndBytes at seen
    split at seen
    · simp only [Except.error.injEq] at seen
      split at seen
      · rename_i returned
        have later := followed (by simp [returned])
        omega
      · omega
    · cases seen
  refine searched.bind ?_
  rintro (last | last) bounded
  · exact Search.steady_pure bounded
  · exact Search.steady_pure bounded

end Source

theorem LineWindow.around_inside {lineStart lineEnd : Nat} (ordered : lineStart ≤ lineEnd)
    (firstColumn lastColumn width : Nat) :
    let window := around lineStart lineEnd firstColumn lastColumn width
    window.first ≤ window.last ∧ window.last ≤ lineEnd := by
  unfold around
  split
  · exact ⟨ordered, Nat.le_refl _⟩
  · rename_i clipped
    simp only [Bool.or_eq_true, decide_eq_true_eq, not_or] at clipped
    dsimp only
    omega

namespace SourceLine

variable {contents : Bytes}

/-- The line of a location reads the same in every source that serves the contents. -/
theorem steady_search (anchor : LineAnchor) (location : Location) (width : Nat)
    (inside : anchor.offset ≤ contents.size) :
    Search.Steady contents (search anchor location width) fun _ => True := by
  have started : Search.Steady contents (startOf anchor location.line) (· ≤ contents.size) := by
    unfold startOf
    split
    · exact Search.steady_pure inside
    split
    · exact Search.steady_pure (Nat.zero_le _)
    split
    · exact Source.steady_lineStart _ _ inside
    · exact Source.steady_lineStart _ _ (Nat.zero_le _)
  refine started.bind ?_
  intro lineStart lineStart_le
  refine (Source.steady_lineEnd lineStart_le).bind ?_
  rintro lineEnd ⟨ordered, lineEnd_le⟩
  obtain ⟨first_le, last_le⟩ := LineWindow.around_inside ordered location.firstColumn
    location.lastColumn width
  refine (Source.steady_range (by omega)).bind ?_
  intro bytes _
  exact Search.steady_pure trivial

end SourceLine

end WasmText
