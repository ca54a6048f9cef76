import WasmText.Source.Search

/-!
# Visits byte by byte

A visitor that is shown a file in pieces carries over from one to the next what it has to know of
the bytes before. So it comes to what a visitor comes to that is shown single bytes, to which it does
not matter where one piece ends and the next begins.
-/

namespace WasmText

/-- A visitor that is shown single bytes, each with its offset. -/
abbrev ByteVisitor (σ : Type) : Type :=
  Nat → σ → UInt8 → Except Nat σ

namespace ByteVisitor

variable {σ : Type}

/-- Shows the next byte, which is at the given offset. -/
def visit (visitor : ByteVisitor σ) : Nat × σ → UInt8 → Except Nat (Nat × σ)
  | (offset, state), byte =>
    match visitor offset state byte with
    | .error found => .error found
    | .ok state => .ok (offset + 1, state)

/-- Shows the bytes from `start` on, the first of which is at the given offset of the source. -/
def visitAll (visitor : ByteVisitor σ) (bytes : Bytes) (start : Nat) (reached : Nat × σ) :
    Except Nat (Nat × σ) :=
  bytes.foldlM visitor.visit reached start

/-- How a visit of the bytes from `start` on ends. -/
def verdict (visitor : ByteVisitor σ) (bytes : Bytes) (start : Nat) (reached : Nat × σ) :
    SearchEnd :=
  match visitor.visitAll bytes start reached with
  | .error offset => .found offset
  | .ok (offset, _) => .exhausted offset

theorem visitAll_extract (visitor : ByteVisitor σ) (bytes : Bytes) (start : Nat)
    (reached : Nat × σ) :
    visitor.visitAll (bytes.extract start bytes.size) 0 reached =
      visitor.visitAll bytes start reached := by
  unfold visitAll
  exact Array.foldlM_start_stop.symm

theorem visitAll_append (visitor : ByteVisitor σ) (left right : Bytes) (reached : Nat × σ) :
    visitor.visitAll (left ++ right) 0 reached =
      visitor.visitAll left 0 reached >>= visitor.visitAll right 0 := by
  unfold visitAll
  exact Array.foldlM_append

/-- A visit can be broken off after any piece and taken up again behind it. -/
theorem visitAll_split (visitor : ByteVisitor σ) (bytes : Bytes) {first middle : Nat}
    (ordered : first ≤ middle) (reached : Nat × σ) :
    visitor.visitAll bytes first reached =
      visitor.visitAll (bytes.extract first middle) 0 reached >>=
        visitor.visitAll bytes middle := by
  have joined : bytes.extract first bytes.size =
      bytes.extract first middle ++ bytes.extract middle bytes.size := by
    rw [Array.extract_append_extract, Nat.min_eq_left ordered]
    apply Array.extract_eq_extract_right.mpr
    omega
  rw [← visitAll_extract, joined, visitAll_append]
  congr 1
  funext next
  exact visitAll_extract visitor bytes middle next

theorem visitAll_of_size_le (visitor : ByteVisitor σ) {bytes : Bytes} {start : Nat}
    (past : bytes.size ≤ start) (reached : Nat × σ) :
    visitor.visitAll bytes start reached = .ok reached := by
  rw [← visitAll_extract, Array.extract_empty_of_size_le_start past]
  rfl

/-- What holds of an offset and the state there, and is kept from byte to byte. -/
def Keeps (visitor : ByteVisitor σ) (Reached : Nat → σ → Prop) : Prop :=
  ∀ offset state byte next, Reached offset state → visitor offset state byte = .ok next →
    Reached (offset + 1) next

/-- Whatever a visitor finds, it finds at a byte that it is shown, in a state that it has come
to. -/
theorem visited_of_error {visitor : ByteVisitor σ} {Reached : Nat → σ → Prop}
    (keeps : visitor.Keeps Reached) {bytes : Bytes} {start offset found : Nat} {state : σ}
    (reached : Reached offset state)
    (outcome : visitor.visitAll bytes start (offset, state) = .error found) :
    ∃ step state byte, step < bytes.size - start ∧ Reached (offset + step) state ∧
      visitor (offset + step) state byte = .error found := by
  rw [← visitAll_extract] at outcome
  have size_eq : (bytes.extract start bytes.size).toList.length = bytes.size - start := by simp
  rw [← size_eq]
  unfold visitAll at outcome
  rw [← Array.foldlM_toList] at outcome
  generalize (bytes.extract start bytes.size).toList = shown at outcome
  induction shown generalizing offset state with
  | nil => cases outcome
  | cons byte shown induction =>
      rw [List.foldlM_cons] at outcome
      cases seen : visitor offset state byte with
      | error place =>
          simp only [visit, seen] at outcome
          cases outcome
          exact ⟨0, state, byte, by simp, reached, seen⟩
      | ok next =>
          simp only [visit, seen] at outcome
          obtain ⟨step, last, byte, step_lt, last_reached, last_seen⟩ :=
            induction (keeps offset state _ next reached seen) outcome
          refine ⟨step + 1, last, byte, by simpa using step_lt, ?_, ?_⟩
          · rwa [Nat.add_comm step, ← Nat.add_assoc]
          · rwa [Nat.add_comm step, ← Nat.add_assoc]

/-- A visitor that finds nothing is shown every byte, and comes behind the last of them. -/
theorem reached_of_ok {visitor : ByteVisitor σ} {Reached : Nat → σ → Prop}
    (keeps : visitor.Keeps Reached) {bytes : Bytes} {start offset last : Nat} {state final : σ}
    (reached : Reached offset state)
    (outcome : visitor.visitAll bytes start (offset, state) = .ok (last, final)) :
    last = offset + (bytes.size - start) ∧ Reached last final := by
  rw [← visitAll_extract] at outcome
  have size_eq : (bytes.extract start bytes.size).toList.length = bytes.size - start := by simp
  rw [← size_eq]
  unfold visitAll at outcome
  rw [← Array.foldlM_toList] at outcome
  generalize (bytes.extract start bytes.size).toList = shown at outcome
  induction shown generalizing offset state with
  | nil =>
      cases outcome
      exact ⟨rfl, reached⟩
  | cons byte shown induction =>
      rw [List.foldlM_cons] at outcome
      cases seen : visitor offset state byte with
      | error place =>
          simp only [visit, seen] at outcome
          cases outcome
      | ok next =>
          simp only [visit, seen] at outcome
          obtain ⟨last_eq, last_reached⟩ :=
            induction (keeps offset state _ next reached seen) outcome
          refine ⟨?_, last_reached⟩
          rw [last_eq, List.length_cons]
          omega

end ByteVisitor

/-! ### Pieces and bytes -/

namespace Visitor

variable {σ : Type}

/-- In every state that it can have come to, a visitor makes of a piece what another one makes of the
bytes in it. -/
structure Follows (visitor : Visitor σ) (bytewise : ByteVisitor σ) (Reached : Nat → σ → Prop) :
    Prop where
  /-- The visit of a piece is that of its bytes. -/
  visit_eq : ∀ {base state piece}, Reached base state → piece.size ≠ 0 →
    visitor base state piece = (bytewise.visitAll piece 0 (base, state)).map Prod.snd
  /-- There is nothing to be found where there are no bytes. -/
  empty : ∀ base state, ∃ next, visitor base state #[] = .ok next
  /-- The states that can be come to. -/
  keeps : bytewise.Keeps Reached

namespace Follows

variable {visitor : Visitor σ} {bytewise : ByteVisitor σ} {Reached : Nat → σ → Prop}

/-- The bytes of a piece lead behind the piece, to the state that the piece leads to. -/
theorem visitAll_eq (follows : visitor.Follows bytewise Reached) {base : Nat} {state : σ}
    {piece : Bytes} (reached : Reached base state) (nonempty : piece.size ≠ 0) :
    bytewise.visitAll piece 0 (base, state) =
      (visitor base state piece).map (base + piece.size, ·) := by
  rw [follows.visit_eq reached nonempty]
  cases visited : bytewise.visitAll piece 0 (base, state) with
  | error found => rfl
  | ok last =>
      obtain ⟨offset, next⟩ := last
      rw [(ByteVisitor.reached_of_ok follows.keeps reached visited).1]
      rfl

theorem reached_of_ok (follows : visitor.Follows bytewise Reached) {base : Nat} {state next : σ}
    {piece : Bytes} (reached : Reached base state) (nonempty : piece.size ≠ 0)
    (visited : visitor base state piece = .ok next) : Reached (base + piece.size) next := by
  have bytes_visited := follows.visitAll_eq reached nonempty
  rw [visited] at bytes_visited
  exact (ByteVisitor.reached_of_ok follows.keeps reached bytes_visited).2

end Follows

end Visitor

namespace Source

/-- Counts lines up from an anchor, until the target line starts. -/
def lineStartBytes (target : Nat) : ByteVisitor Nat := fun offset line byte =>
  if byte = Ascii.newline then
    if line + 1 = target then .error (offset + 1) else .ok (line + 1)
  else
    .ok line

/-- Looks for the end of a line, knowing the byte before. -/
def lineEndBytes : ByteVisitor (Option UInt8) := fun offset previous byte =>
  if byte = Ascii.newline then
    .error (if previous = some Ascii.carriageReturn then offset - 1 else offset)
  else
    .ok (some byte)

/-- The indices of the newlines in a piece, one byte further on. -/
theorem indices_cons (byte : UInt8) (bytes : List UInt8) :
    ((List.range (byte :: bytes).length).filter fun index =>
        (byte :: bytes)[index]? = some Ascii.newline) =
      (if byte = Ascii.newline then [0] else []) ++
        ((List.range bytes.length).filter fun index =>
          bytes[index]? = some Ascii.newline).map (· + 1) := by
  rw [List.length_cons, List.range_succ_eq_map, List.filter_cons, List.filter_map]
  simp only [List.getElem?_cons_zero, Option.some.injEq, decide_eq_true_eq]
  split <;> rfl

/-- Newlines are counted wherever pieces end. -/
theorem lineStart_follows (target : Nat) :
    (lineStartVisitor target).Follows (lineStartBytes target) fun _ _ => True where
  visit_eq := by
    intro base line piece _ _
    unfold lineStartVisitor Bytes.indicesOf ByteVisitor.visitAll
    rw [← Array.foldlM_toList, ← Array.length_toList]
    simp only [← Array.getElem?_toList]
    generalize piece.toList = bytes
    induction bytes generalizing base line with
    | nil => rfl
    | cons byte bytes induction =>
        have further (line : Nat) := @induction (base + 1) line
        simp only [Nat.add_right_comm base 1] at further
        rw [indices_cons, List.foldlM_append, List.foldlM_cons]
        simp only [List.foldlM_map, Nat.add_assoc] at further ⊢
        by_cases newline : byte = Ascii.newline
        · rw [if_pos newline, List.foldlM_cons, ByteVisitor.visit, lineStartBytes, if_pos newline]
          by_cases last : line + 1 = target
          · simp only [if_pos last]
            rfl
          · simp only [if_neg last]
            exact further (line + 1)
        · rw [if_neg newline, ByteVisitor.visit, lineStartBytes, if_neg newline]
          exact further line
  empty := fun _ line => ⟨line, rfl⟩
  keeps := fun _ _ _ _ _ _ => trivial

/-- A visit for the end of a line, knowing the byte before. -/
theorem foldlM_lineEndBytes (bytes : List UInt8) (offset : Nat) (previous : Option UInt8) :
    let line := bytes.takeWhile (· != Ascii.newline)
    bytes.foldlM (lineEndBytes.visit) (offset, previous) =
      if line.length < bytes.length then
        .error (if line.getLast?.or previous = some Ascii.carriageReturn then
          offset + line.length - 1 else offset + line.length)
      else
        .ok (offset + bytes.length, bytes.getLast?.or previous) := by
  induction bytes generalizing offset previous with
  | nil => rfl
  | cons byte bytes induction =>
      rw [List.foldlM_cons]
      by_cases newline : byte = Ascii.newline
      · have line_eq : (byte :: bytes).takeWhile (· != Ascii.newline) = [] :=
          List.takeWhile_cons_of_neg (by simp [newline])
        have found : lineEndBytes.visit (offset, previous) byte =
            .error (if previous = some Ascii.carriageReturn then offset - 1 else offset) := by
          rw [ByteVisitor.visit, lineEndBytes, if_pos newline]
        rw [line_eq, found]
        rfl
      · have line_eq : (byte :: bytes).takeWhile (· != Ascii.newline) =
            byte :: bytes.takeWhile (· != Ascii.newline) :=
          List.takeWhile_cons_of_pos (by simpa using newline)
        have passed : lineEndBytes.visit (offset, previous) byte =
            .ok (offset + 1, some byte) := by
          rw [ByteVisitor.visit, lineEndBytes, if_neg newline]
        have last_eq (line : List UInt8) :
            (byte :: line).getLast?.or previous = line.getLast?.or (some byte) := by
          cases line with
          | nil => rfl
          | cons => simp [List.getLast?_cons]
        have further := induction (offset + 1) (some byte)
        rw [line_eq, passed]
        dsimp only at further ⊢
        rw [last_eq, last_eq]
        simp only [Nat.add_right_comm offset 1] at further
        simp only [List.length_cons, Nat.add_lt_add_iff_right]
        exact further

/-- The last byte of a piece is the byte before the next one. -/
theorem lineEnd_follows (start : Nat) :
    (lineEndVisitor start).Follows lineEndBytes fun offset previous =>
      start ≤ offset ∧ (previous ≠ none → start < offset) where
  visit_eq := by
    rintro base previous ⟨bytes⟩ ⟨started, later⟩ nonempty
    rw [ByteVisitor.visitAll, ← Array.foldlM_toList, foldlM_lineEndBytes, lineEndVisitor,
      List.findIdx?_toArray]
    have line_eq : bytes.takeWhile (· != Ascii.newline) =
        bytes.take (bytes.findIdx (· == Ascii.newline)) := by
      rw [List.takeWhile_eq_take_findIdx_not]
      simp only [bne, Bool.not_not]
    rw [line_eq]
    cases found : bytes.findIdx? (· == Ascii.newline) with
    | none =>
        have whole := List.findIdx_eq_length.mpr (List.findIdx?_eq_none_iff.mp found)
        have ended : bytes ≠ [] := by
          rintro rfl
          exact nonempty rfl
        rw [whole, List.take_length, if_neg (Nat.lt_irrefl _), List.getLast?_eq_some_getLast ended]
        simp [List.getLast?_eq_some_getLast ended, Except.map]
    | some index =>
        obtain ⟨below, index_eq⟩ := List.findIdx?_eq_some_iff_findIdx_eq.mp found
        have length_eq : (bytes.take index).length = index :=
          List.length_take_of_le (Nat.le_of_lt below)
        rw [index_eq, length_eq, if_pos below, List.getLast?_take]
        -- A carriage return to be taken off is in the line, for it is not before the line's start.
        have before_eq : (if index = 0 then none else bytes[index - 1]?.or bytes.getLast?).or
            previous = if 0 < index then bytes[index - 1]? else previous := by
          by_cases first : index = 0
          · simp [first]
          · rw [if_neg first, if_pos (Nat.pos_of_ne_zero first),
              List.getElem?_eq_getElem (by omega)]
            rfl
        have in_line (returned : (if 0 < index then bytes[index - 1]? else previous) =
            some Ascii.carriageReturn) : start < base + index := by
          by_cases first : index = 0
          · rw [first, if_neg (Nat.lt_irrefl 0)] at returned
            exact Nat.lt_add_right index (later (by simp [returned]))
          · omega
        rw [before_eq]
        simp only [List.getElem?_toArray, and_iff_left_of_imp in_line]
        rfl
  empty := fun _ _ => ⟨none, by rw [lineEndVisitor, Array.findIdx?_empty]; rfl⟩
  keeps := by
    rintro offset previous byte next ⟨started, -⟩ -
    exact ⟨Nat.le_succ_of_le started, fun _ => Nat.lt_succ_of_le started⟩

end Source

end WasmText
