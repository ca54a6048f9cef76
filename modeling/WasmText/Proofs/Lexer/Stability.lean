import WasmText.Proofs.Lexer.Bare
import WasmText.Proofs.Lexer.Lookahead
import WasmText.Proofs.Lexer.Reads

/-!
# Prefix stability

What a lexer finds before the end of its input it finds in every longer input too. Tokens and errors
are put in the order in which they are found, each with the offset behind its bytes. Those that end
before the input does are the first that are found when further bytes follow.
-/

namespace WasmText

/-- Something that is found in the input. -/
inductive Found where
  /-- An error. -/
  | error (diagnostic : Diagnostic)
  /-- A token. -/
  | token (token : Token)

/-- What is found in the order of its bytes: the errors on the way to a token, and then the
token. -/
def foundIn (readings : List Reading) : List Found :=
  readings.flatMap fun reading =>
    reading.diagnostics.toList.map .error ++ [.token reading.token]

/-- Something that is found, with the offset behind its bytes. -/
structure Item where
  /-- The offset behind the last of its bytes. -/
  last : Nat
  /-- What is found. -/
  found : Found

namespace Lexer

variable {lexer after : Lexer Cursor} {lexeme : Lexeme} {errors : List LexError}
  {items others : List Item} {readings : List Reading} {back : Bytes}

/-- What a turn finds in error. -/
def faults (lexer : Lexer Cursor) : List Item :=
  lexer.piece.error.toList.map fun error =>
    { last := (lexer.take lexer.piece).tape.offset
      found := .error (lexer.begun.diagnostic error lexer.tape.offset
        (lexer.tape.offset + lexer.piece.taken.length)) }

/-- What is found when a lexeme is complete. -/
def arrival (lexeme : Lexeme) (after : Lexer Cursor) : Item where
  last := after.tape.offset
  found := .token (handOut lexeme after).1.token

/-- A lexer takes turns to the end of its input, and finds the items one after the other. -/
inductive Yields : Lexer Cursor → List Item → Prop
  /-- After a fatal error the input is over. -/
  | finished {lexer : Lexer Cursor} (finished : lexer.finished = true) :
      Yields lexer [arrival .eof lexer.closed]
  | ends {lexer : Lexer Cursor} (running : lexer.finished = false)
      (completes : lexer.piece.lexeme = some .eof) :
      Yields lexer (lexer.faults ++ [arrival .eof (lexer.take lexer.piece)])
  | token {lexer : Lexer Cursor} {lexeme : Lexeme} {items : List Item}
      (running : lexer.finished = false) (completes : lexer.piece.lexeme = some lexeme)
      (token : lexeme ≠ .eof)
      (further : Yields (handOut lexeme (lexer.take lexer.piece)).2 items) :
      Yields lexer (lexer.faults ++ arrival lexeme (lexer.take lexer.piece) :: items)
  | goesOn {lexer : Lexer Cursor} {items : List Item} (running : lexer.finished = false)
      (skips : lexer.piece.lexeme = none) (further : Yields (lexer.take lexer.piece) items) :
      Yields lexer (lexer.faults ++ items)

/-! ### Items are what is read -/

/-- The errors reported so far. -/
def earlier (lexer : Lexer Cursor) : List Found :=
  lexer.reported.toList.map .error

theorem earlier_take (lexer : Lexer Cursor) :
    (lexer.take lexer.piece).earlier = lexer.earlier ++ lexer.faults.map Item.found := by
  rw [earlier, reported_take, List.map_append, List.map_map, faults, List.map_map]
  rfl

/-- Items of a call come before those of the calls after it. -/
theorem Finds.yields (finds : Finds lexer errors lexeme after) :
    (lexeme = .eof → ∃ items, Yields lexer items ∧
      lexer.earlier ++ items.map Item.found =
        after.earlier ++ [.token (handOut lexeme after).1.token]) ∧
      (lexeme ≠ .eof → ∀ further, Yields (handOut lexeme after).2 further →
        ∃ items, Yields lexer items ∧
          lexer.earlier ++ items.map Item.found =
            after.earlier ++ .token (handOut lexeme after).1.token ::
              further.map Item.found) := by
  induction finds with
  | finished finished =>
      exact ⟨fun _ => ⟨_, .finished finished, rfl⟩, fun token => absurd rfl token⟩
  | completes running completes =>
      constructor
      · rintro rfl
        refine ⟨_, .ends running completes, ?_⟩
        rw [earlier_take, List.map_append, List.append_assoc]
        rfl
      · intro token further yields
        refine ⟨_, .token running completes token yields, ?_⟩
        rw [earlier_take, List.map_append, List.append_assoc]
        rfl
  | goesOn running skips _ induction =>
      obtain ⟨at_end, at_token⟩ := induction
      constructor
      · intro eof
        obtain ⟨items, yields, found_eq⟩ := at_end eof
        refine ⟨_, .goesOn running skips yields, ?_⟩
        rw [← found_eq, earlier_take, List.map_append, List.append_assoc]
      · intro token further further_yields
        obtain ⟨items, yields, found_eq⟩ := at_token token further further_yields
        refine ⟨_, .goesOn running skips yields, ?_⟩
        rw [← found_eq, earlier_take, List.map_append, List.append_assoc]

/-- The items of a lexer are what it reads. -/
theorem Reads.yields (reads : Reads lexer readings) :
    ∃ items, Yields lexer items ∧
      lexer.earlier ++ items.map Item.found = foundIn readings := by
  induction reads with
  | last finds =>
      obtain ⟨items, yields, found_eq⟩ := finds.yields.1 rfl
      exact ⟨items, yields, found_eq.trans (List.append_nil _).symm⟩
  | more finds token _ induction =>
      obtain ⟨further, further_yields, further_eq⟩ := induction
      obtain ⟨items, yields, found_eq⟩ := finds.yields.2 token further further_yields
      refine ⟨items, yields, found_eq.trans ?_⟩
      rw [foundIn, List.flatMap_cons, ← foundIn, ← further_eq, List.append_assoc]
      rfl

/-! ### Further bytes -/

/-- The lexer with further bytes behind its own. -/
def followed (back : Bytes) (lexer : Lexer Cursor) : Lexer Cursor :=
  { lexer with tape := { lexer.tape with bytes := lexer.tape.bytes ++ back } }

theorem ahead_followed (inside : lexer.tape.offset ≤ lexer.tape.bytes.size) :
    (lexer.followed back).tape.ahead = lexer.tape.ahead ++ back.toList := by
  change (lexer.tape.bytes ++ back).toList.drop lexer.tape.offset = _
  rw [Array.toList_append, List.drop_append_of_le_length (by simpa using inside)]
  rfl

theorem pending_followed (back : Bytes) (inside : lexer.tape.offset ≤ lexer.tape.bytes.size) :
    (lexer.followed back).pending = lexer.pending := by
  have kept : (lexer.tape.bytes ++ back).extract lexer.tape.token lexer.tape.offset =
      lexer.tape.bytes.extract lexer.tape.token lexer.tape.offset := by
    rw [Array.extract_append, Nat.sub_eq_zero_of_le inside]
    simp
  exact congrArg (fun bytes => if lexer.mode = .badText then bytes.toList else []) kept

/-- Without its source line an error does not depend on what comes behind. -/
theorem diagnostic_followed (bare : lexer.lineWidth = 0) (error : LexError) (first last : Nat) :
    (lexer.followed back).begun.diagnostic error first last =
      lexer.begun.diagnostic error first last := by
  have line_eq (lexer : Lexer Cursor) (bare : lexer.lineWidth = 0) (location : Location) :
      lineShown lexer.tape.bytes lexer.anchor lexer.lineWidth location = none := if_pos bare
  exact congrArg (Diagnostic.mk _ _)
    ((line_eq (lexer.followed back).begun bare _).trans (line_eq lexer.begun bare _).symm)

/-- The same piece has the same effect. -/
theorem take_followed (back : Bytes) (bare : lexer.lineWidth = 0) (piece : Piece) :
    (lexer.followed back).take piece = (lexer.take piece).followed back := by
  have reported_eq : ((lexer.followed back).take piece).reported = (lexer.take piece).reported := by
    unfold take behind
    dsimp only
    cases piece.error with
    | none => rfl
    | some error => exact congrArg lexer.reported.push (diagnostic_followed bare error _ _)
  exact (Lexer.mk.injEq ..).mpr ⟨rfl, rfl, rfl, rfl, rfl, rfl, rfl, rfl, reported_eq⟩

/-- A turn that leaves some bytes is the same, unless it takes a string that is cut off there. -/
theorem piece_followed (back : Bytes) (tidy : lexer.Tidy) {rest : List UInt8}
    (split : lexer.tape.ahead = lexer.piece.taken ++ rest) (left : rest ≠ []) :
    (lexer.followed back).piece = lexer.piece ∨
      (∃ content, lexer.piece =
        { taken := content, mode := .badText, nesting := lexer.nesting }) ∧ Piece.Cut rest := by
  have piece_eq : (lexer.followed back).piece =
      .next lexer.mode lexer.nesting lexer.pending (lexer.tape.ahead ++ back.toList) := by
    rw [← ahead_followed tidy.offset_le, ← pending_followed back tidy.offset_le]
    rfl
  rw [piece_eq]
  exact Piece.next_append back.toList split left

/-! ### Where items end -/

theorem last_eq_of_mem_faults :
    ∀ item ∈ lexer.faults, item.last = (lexer.take lexer.piece).tape.offset := by
  intro item present
  obtain ⟨error, -, rfl⟩ := List.mem_map.mp present
  rfl

theorem le_last_of_mem_faults :
    ∀ item ∈ lexer.faults, (lexer.take lexer.piece).tape.offset ≤ item.last :=
  fun item present => Nat.le_of_eq (last_eq_of_mem_faults item present).symm

/-- Items end behind the cursor, and behind the next turn if there is one. -/
theorem Yields.le_last (yields : Yields lexer items) :
    ∀ item ∈ items, lexer.tape.offset ≤ item.last ∧
      (lexer.finished = false → (lexer.take lexer.piece).tape.offset ≤ item.last) := by
  -- Where a turn is taken, it is enough that the items end behind it.
  have of_turn {lexer : Lexer Cursor} {items : List Item}
      (behind : ∀ item ∈ items, (lexer.take lexer.piece).tape.offset ≤ item.last) :
      ∀ item ∈ items, lexer.tape.offset ≤ item.last ∧
        (lexer.finished = false → (lexer.take lexer.piece).tape.offset ≤ item.last) :=
    fun item present => ⟨Nat.le_trans (Nat.le_add_right _ _) (behind item present),
      fun _ => behind item present⟩
  induction yields with
  | finished finished =>
      refine List.forall_mem_singleton.mpr ⟨Nat.le_refl _, fun running => ?_⟩
      cases running.symm.trans finished
  | ends =>
      refine of_turn (List.forall_mem_append.mpr ⟨le_last_of_mem_faults, ?_⟩)
      exact List.forall_mem_singleton.mpr (Nat.le_refl _)
  | token _ _ _ _ induction =>
      refine of_turn (List.forall_mem_append.mpr ⟨le_last_of_mem_faults, ?_⟩)
      exact List.forall_mem_cons.mpr
        ⟨Nat.le_refl _, fun item present => (induction item present).1⟩
  | goesOn _ _ _ induction =>
      refine of_turn (List.forall_mem_append.mpr ⟨le_last_of_mem_faults, ?_⟩)
      exact fun item present => (induction item present).1

/-- The items that end before an offset. -/
def endingBefore (limit : Nat) (items : List Item) : List Item :=
  items.filter fun item => item.last < limit

theorem endingBefore_eq_nil {limit : Nat} (late : ∀ item ∈ items, limit ≤ item.last) :
    endingBefore limit items = [] := by
  refine List.filter_eq_nil_iff.mpr fun item present => ?_
  simpa using late item present

/-- Nothing is left behind the next turn of a lexer, so that no item ends before the input. -/
theorem Yields.endingBefore_eq_nil (yields : Yields lexer items) (tidy : lexer.Tidy)
    (running : lexer.finished = false) (whole : lexer.tape.ahead = lexer.piece.taken) :
    endingBefore lexer.tape.bytes.size items = [] := by
  refine Lexer.endingBefore_eq_nil fun item present => ?_
  have behind := (yields.le_last item present).2 running
  have ahead_length := lexer.tape.length_ahead
  have inside := tidy.offset_le
  have offset_eq : (lexer.take lexer.piece).tape.offset =
      lexer.tape.offset + lexer.piece.taken.length := rfl
  rw [whole] at ahead_length
  omega

/-- Behind a string that is cut off at the end of the input no item ends before the input. -/
theorem Yields.of_cut (yields : Yields lexer items) (tidy : lexer.Tidy)
    (running : lexer.finished = false) (text : lexer.mode = .badText)
    (cut : Piece.Cut lexer.tape.ahead) :
    endingBefore lexer.tape.bytes.size items = [] := by
  refine yields.endingBefore_eq_nil tidy running ?_
  rw [piece, text]
  exact (cut.taken_eq lexer.nesting lexer.pending).symm

theorem endingBefore_append_faults {limit : Nat}
    (inside : (lexer.take lexer.piece).tape.offset < limit) :
    endingBefore limit (lexer.faults ++ items) = lexer.faults ++ endingBefore limit items := by
  have kept : lexer.faults.filter (fun item => item.last < limit) = lexer.faults := by
    refine List.filter_eq_self.mpr fun item present => ?_
    rw [last_eq_of_mem_faults item present]
    exact decide_eq_true inside
  rw [endingBefore, List.filter_append, kept]
  rfl

/-- Unless no item ends before the input, the next turn is the same when further bytes follow. -/
theorem Yields.turn_followed (yields : Yields lexer items) (tidy : lexer.Tidy)
    (running : lexer.finished = false) (back : Bytes) :
    endingBefore lexer.tape.bytes.size items = [] ∨
      (lexer.followed back).piece = lexer.piece ∧
        (lexer.take lexer.piece).tape.offset < lexer.tape.bytes.size := by
  obtain ⟨rest, ahead_eq, -⟩ := lexer.exists_rest
  by_cases nothing : rest = []
  · rw [nothing, List.append_nil] at ahead_eq
    exact .inl (yields.endingBefore_eq_nil tidy running ahead_eq)
  rcases piece_followed back tidy ahead_eq nothing with same | ⟨⟨content, piece_eq⟩, cut⟩
  · refine .inr ⟨same, ?_⟩
    have ahead_length := lexer.tape.length_ahead
    have positive := List.length_pos_iff.mpr nothing
    rw [ahead_eq, List.length_append] at ahead_length
    change lexer.tape.offset + lexer.piece.taken.length < _
    omega
  · left
    have silent : lexer.faults = [] := by
      rw [faults, piece_eq]
      rfl
    cases yields with
    | finished finished => cases running.symm.trans finished
    | ends _ completes | token _ completes =>
        rw [piece_eq] at completes
        cases completes
    | goesOn _ _ further =>
        have still_running : (lexer.take lexer.piece).finished = false := by
          rw [piece_eq]
          exact running
        have text : (lexer.take lexer.piece).mode = .badText := by
          rw [piece_eq]
          rfl
        rw [silent]
        refine further.of_cut tidy.take still_running text ?_
        rw [ahead_take ahead_eq]
        exact cut

theorem faults_followed (bare : lexer.lineWidth = 0)
    (same : (lexer.followed back).piece = lexer.piece) :
    (lexer.followed back).faults = lexer.faults := by
  unfold faults
  rw [same]
  refine List.map_congr_left fun error _ => ?_
  exact congrArg (fun diagnostic => Item.mk _ (.error diagnostic))
    (diagnostic_followed bare error _ _)

/-- Items that end before the input are found first when further bytes follow. -/
theorem Yields.stable (yields : Yields lexer items) (tidy : lexer.Tidy)
    (bare : lexer.lineWidth = 0) (longer : Yields (lexer.followed back) others) :
    endingBefore lexer.tape.bytes.size items <+: others := by
  induction yields generalizing others with
  | @finished lexer finished =>
      cases longer with
      | finished =>
          rw [endingBefore, List.filter_singleton]
          cases decide ((arrival .eof lexer.closed).last < lexer.tape.bytes.size) with
          | false => exact List.nil_prefix
          | true => exact List.prefix_refl _
      | ends running | token running | goesOn running =>
          cases finished.symm.trans running
  | @ends lexer running completes =>
      obtain ⟨rest, ahead_eq, fits⟩ := lexer.exists_rest
      have at_end := fits.of_ends (fits.ends_of_eof pending_of_ne completes)
      rw [at_end.2.1, List.append_nil] at ahead_eq
      rw [(Yields.ends running completes).endingBefore_eq_nil tidy running ahead_eq]
      exact List.nil_prefix
  | @token lexer lexeme items running completes token further induction =>
      rcases (Yields.token running completes token further).turn_followed tidy running back with
        nothing | ⟨same, inside⟩
      · rw [nothing]
        exact List.nil_prefix
      have take_eq := take_followed back bare lexer.piece
      rw [← same] at completes take_eq
      rw [endingBefore_append_faults inside, ← faults_followed bare same]
      cases longer with
      | finished finished => cases running.symm.trans finished
      | ends _ eof => exact absurd (Option.some.inj (completes.symm.trans eof)) token
      | goesOn _ skips => cases completes.symm.trans skips
      | @token _ found more _ found_completes _ further_longer =>
          obtain rfl := Option.some.inj (completes.symm.trans found_completes)
          rw [same] at further_longer take_eq ⊢
          rw [take_eq] at further_longer ⊢
          have kept : endingBefore lexer.tape.bytes.size
              (arrival lexeme (lexer.take lexer.piece) :: items) =
              arrival lexeme (lexer.take lexer.piece) ::
                endingBefore lexer.tape.bytes.size items :=
            List.filter_cons_of_pos (decide_eq_true inside)
          rw [kept]
          refine (List.prefix_append_right_inj _).mpr (List.cons_prefix_cons.mpr ⟨rfl, ?_⟩)
          exact induction tidy.take.handOut bare further_longer
  | @goesOn lexer items running skips further induction =>
      rcases (Yields.goesOn running skips further).turn_followed tidy running back with
        nothing | ⟨same, inside⟩
      · rw [nothing]
        exact List.nil_prefix
      have take_eq := take_followed back bare lexer.piece
      rw [← same] at skips
      rw [endingBefore_append_faults inside, ← faults_followed bare same]
      cases longer with
      | finished finished => cases running.symm.trans finished
      | ends _ completes | token _ completes => cases completes.symm.trans skips
      | goesOn _ _ further_longer =>
          rw [same, take_eq] at further_longer
          exact (List.prefix_append_right_inj _).mpr (induction tidy.take bare further_longer)

/-- Prefix stability. The tokens and errors that are found in an input, those that end before the
input does, are the first that are found when further bytes follow, with the same kinds, values,
messages and locations, unless a refill fails. So a lexer looks at most one byte beyond what it
finds, and later input changes nothing that has been found. Where an item ends is where the cursor
is behind the turn that finds it. -/
theorem readings_stable {short long : Source} {front back : Bytes}
    (short_opens : short.Opens front) (long_opens : long.Opens (front ++ back))
    (filename : String) (lineWidth short_size short_bound long_size long_bound : Nat)
    (short_flowing :
      (opened filename lineWidth short short_size short_bound).readings.2.tape.stalled = false)
    (long_flowing :
      (opened filename lineWidth long long_size long_bound).readings.2.tape.stalled = false) :
    let early := (opened filename lineWidth short short_size short_bound).readings.1.toList
    let whole := (opened filename lineWidth long long_size long_bound).readings.1.toList
    ∃ items, Yields (plain filename 0 front) items ∧
      items.map Item.found = foundIn (early.map Reading.bare) ∧
        (endingBefore front.size items).map Item.found <+: foundIn (whole.map Reading.bare) := by
  intro early whole
  have early_reads := reads_readings (tidy_ofTape filename 0 front)
  have whole_reads := reads_readings (tidy_ofTape filename 0 (front ++ back))
  obtain ⟨items, yields, found_eq⟩ := early_reads.yields
  obtain ⟨others, longer, others_eq⟩ := whole_reads.yields
  refine ⟨items, yields, ?_, ?_⟩
  · rw [← readings_eq_bare short_opens filename lineWidth short_size short_bound short_flowing]
    exact found_eq
  · rw [← readings_eq_bare long_opens filename lineWidth long_size long_bound long_flowing]
    have stable := yields.stable (tidy_ofTape filename 0 front) rfl longer
    exact (stable.map Item.found).trans (others_eq ▸ List.prefix_refl _)

/-- A name and a string that is cut off in the middle of an escape, from a window of one byte, and
the same with the rest of the escape, a name and a byte in error behind them, from a window of
three. -/
theorem readings_stable_escape :
    let early := (opened "a.wast" 80 (.ofBytes "$a \"b\\4".toUTF8.data) 1 4096).readings.1.toList
    let whole :=
      (opened "a.wast" 80 (.ofBytes "$a \"b\\41\"$c ,".toUTF8.data) 3 4096).readings.1.toList
    ∃ items, Yields (plain "a.wast" 0 "$a \"b\\4".toUTF8.data) items ∧
      items.map Item.found = foundIn (early.map Reading.bare) ∧
        (endingBefore 7 items).map Item.found <+: foundIn (whole.map Reading.bare) :=
  have long_opens : (Source.ofBytes "$a \"b\\41\"$c ,".toUTF8.data).Opens
      ("$a \"b\\4".toUTF8.data ++ "1\"$c ,".toUTF8.data) :=
    Source.opens_ofBytes _
  readings_stable (Source.opens_ofBytes "$a \"b\\4".toUTF8.data) long_opens "a.wast" 80 1 4096 3
    4096 (by decide +kernel) (by decide +kernel)

end Lexer

end WasmText
