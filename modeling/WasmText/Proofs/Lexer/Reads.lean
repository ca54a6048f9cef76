import WasmText.Proofs.Lexer.Call

/-!
# Reading to the end

A lexer reads token by token until the input ends, and its bytes leave it no choice. What it reads
is given here as a relation, by the calls that are made and what each of them finds.
-/

namespace WasmText

/-- The tokens that are read. -/
def tokensOf (readings : List Reading) : List Token :=
  readings.map Reading.token

/-- The errors that are reported on the way, in order. -/
def errorsOf (readings : List Reading) : List Diagnostic :=
  readings.flatMap fun reading => reading.diagnostics.toList

@[simp] theorem tokensOf_cons (reading : Reading) (readings : List Reading) :
    tokensOf (reading :: readings) = reading.token :: tokensOf readings :=
  rfl

@[simp] theorem errorsOf_cons (reading : Reading) (readings : List Reading) :
    errorsOf (reading :: readings) = reading.diagnostics.toList ++ errorsOf readings :=
  List.flatMap_cons

namespace Lexer

variable {lexer after other : Lexer Cursor} {lexeme found : Lexeme} {errors others : List LexError}
  {readings again : List Reading}

/-- A lexer comes to the end of its input with the readings. -/
inductive Reads : Lexer Cursor → List Reading → Prop
  | last {lexer after : Lexer Cursor} {errors : List LexError}
      (finds : Finds lexer errors .eof after) : Reads lexer [(handOut .eof after).1]
  | more {lexer after : Lexer Cursor} {errors : List LexError} {lexeme : Lexeme}
      {readings : List Reading} (finds : Finds lexer errors lexeme after)
      (token : lexeme ≠ .eof) (further : Reads (handOut lexeme after).2 readings) :
      Reads lexer ((handOut lexeme after).1 :: readings)

theorem Reads.of_finds (reads : Reads lexer readings)
    (same : ∀ {errors lexeme after}, Finds lexer errors lexeme after →
      ∃ others, Finds other others lexeme after) : Reads other readings := by
  cases reads with
  | last finds =>
      obtain ⟨others, found⟩ := same finds
      exact .last found
  | more finds token further =>
      obtain ⟨others, found⟩ := same finds
      exact .more found token further

/-! ### No choice -/

/-- A call comes to one lexeme only. -/
theorem Finds.unique (finds : Finds lexer errors lexeme after)
    (again : Finds lexer others found other) :
    errors = others ∧ lexeme = found ∧ after = other := by
  induction finds generalizing others with
  | finished finished =>
      cases again with
      | finished => exact ⟨rfl, rfl, rfl⟩
      | completes running | goesOn running => cases finished.symm.trans running
  | completes running completes =>
      cases again with
      | finished finished => cases finished.symm.trans running
      | completes _ same => exact ⟨rfl, Option.some.inj (completes.symm.trans same), rfl⟩
      | goesOn _ skips => cases completes.symm.trans skips
  | goesOn running skips _ induction =>
      cases again with
      | finished finished => cases finished.symm.trans running
      | completes _ completes => cases completes.symm.trans skips
      | goesOn _ _ further =>
          obtain ⟨rfl, rfl, rfl⟩ := induction further
          exact ⟨rfl, rfl, rfl⟩

/-- There is one way to come to the end of the input. -/
theorem Reads.unique (reads : Reads lexer readings) (same : Reads lexer again) :
    readings = again := by
  induction reads generalizing again with
  | last finds =>
      cases same with
      | last same_finds => rw [(finds.unique same_finds).2.2]
      | more same_finds token => exact absurd (finds.unique same_finds).2.1.symm token
  | more finds token _ induction =>
      cases same with
      | last same_finds => exact absurd (finds.unique same_finds).2.1 token
      | more same_finds _ further =>
          obtain ⟨-, rfl, rfl⟩ := finds.unique same_finds
          rw [induction further]

/-! ### The end is reached -/

/-- A call that finds a token brings the end closer. -/
theorem Finds.length_ahead_lt (finds : Finds lexer errors lexeme after) (token : lexeme ≠ .eof) :
    after.tape.ahead.length < lexer.tape.ahead.length := by
  induction finds with
  | finished => exact absurd rfl token
  | completes _ completes => exact length_ahead_take_lt (goes_on_of_token completes token)
  | goesOn _ skips _ induction =>
      exact Nat.lt_trans (induction token) (length_ahead_take_lt (goes_on_of_skips skips))

/-- A token is the end of the input only if its lexeme is. -/
theorem Finds.isEof_iff (finds : Finds lexer errors lexeme after) (tidy : lexer.Tidy) :
    (handOut lexeme after).1.token.isEof = true ↔ lexeme = .eof := by
  constructor
  · intro eof
    have kind_eq : lexeme.kind = .eof := of_decide_eq_true eof
    have meaning := (finds.token tidy).2
    rw [Lexeme.Says, kind_eq] at meaning
    cases lexeme
    cases kind_eq
    exact congrArg _ meaning.1
  · rintro rfl
    rfl

theorem reads_readingsWithin {tokens : Nat} (tidy : lexer.Tidy)
    (enough : lexer.tape.ahead.length < tokens) (earlier : Array Reading) :
    ∃ readings, Reads lexer readings ∧
      (lexer.readingsWithin tokens earlier).1.toList = earlier.toList ++ readings := by
  induction tokens generalizing lexer earlier with
  | zero => exact absurd enough (Nat.not_lt_zero _)
  | succ tokens induction =>
      obtain ⟨errors, lexeme, after, finds, next_eq⟩ := exists_finds tidy
      rw [readingsWithin, next_eq]
      dsimp only
      by_cases eof : lexeme = .eof
      · subst eof
        rw [if_pos ((finds.isEof_iff tidy).mpr rfl)]
        exact ⟨_, .last finds, Array.toList_push⟩
      · have shorter := finds.length_ahead_lt eof
        obtain ⟨readings, reads, readings_eq⟩ := induction (finds.tidy tidy).handOut
          (Nat.lt_of_lt_of_le shorter (Nat.le_of_lt_succ enough))
          (earlier.push (handOut lexeme after).1)
        rw [if_neg (mt (finds.isEof_iff tidy).mp eof)]
        refine ⟨_, .more finds eof reads, ?_⟩
        rw [readings_eq, Array.toList_push, List.append_assoc]
        rfl

/-- There are always calls enough. -/
theorem reads_readings (tidy : lexer.Tidy) : Reads lexer lexer.readings.1.toList := by
  have enough : lexer.tape.ahead.length < Tape.remaining lexer.tape + 1 := by
    rw [Cursor.length_ahead]
    exact Nat.lt_succ_self _
  obtain ⟨readings, reads, readings_eq⟩ := reads_readingsWithin tidy enough #[]
  rw [Lexer.readings, readings_eq]
  exact reads

end Lexer

end WasmText
