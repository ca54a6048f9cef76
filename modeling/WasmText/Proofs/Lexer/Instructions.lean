import WasmText.Proofs.Keyword
import WasmText.Proofs.Lexer.Relexing

/-!
# The instructions that tokens name

Classification takes a word to its meaning, the scanner takes the meaning to a token, and the token
leads back to an instruction, for a scalar constant by way of its type. On the whole way nothing is
lost or mistaken: a token names an instruction if and only if its bytes are a word of it.
-/

namespace WasmText

/-- The token of a lexeme at a location. -/
def Lexeme.token (lexeme : Lexeme) (location : Location) : Token where
  kind := lexeme.kind
  payload := lexeme.payload
  location := location

namespace Keyword

variable {bytes : Bytes}

/-- The token of an atom names the instruction that the atom's meaning does. -/
theorem opcode_atomLexeme (bytes : Bytes) (location : Location) :
    ((Scan.atomLexeme? bytes).bind fun lexeme => (lexeme.token location).opcode?) =
      (ofBytes? bytes).bind Keyword.opcode? := by
  cases spelled : ofBytes? bytes with
  | some meaning =>
      rw [Scan.atomLexeme?, classify_of_ofBytes spelled]
      cases meaning <;> rfl
  | none =>
      rw [Scan.atomLexeme?]
      rcases Atom.classify_cases bytes with
        ⟨meaning, same, -⟩ | same | ⟨-, same⟩ | ⟨-, same⟩ | same
      · cases spelled.symm.trans same
      · rw [same]
        rfl
      · rw [same]
        rfl
      · rw [same]
        rfl
      · rw [same]
        rcases Atom.ofNumber_cases bytes.toList with no_number | ⟨kind, form, number, -⟩
        · rw [no_number]
          rfl
        · rw [number]
          rfl

/-- Bytes that begin with no small letter are no word. -/
theorem ofBytes_of_not_maySpell (no_word : maySpell bytes = false) : ofBytes? bytes = none :=
  if_neg (Bool.eq_false_iff.mp no_word)

end Keyword

/-- A lexeme's token names the instruction that the lexeme's bytes are a word of. -/
def Lexeme.Names (bytes : Bytes) (lexeme : Lexeme) : Prop :=
  ∀ location, (lexeme.token location).opcode? = (Keyword.ofBytes? bytes).bind Keyword.opcode?

theorem Lexeme.names_eof : Lexeme.eof.Names #[] := by
  intro location
  rw [Keyword.ofBytes_of_not_maySpell (by decide)]
  rfl

theorem Spelling.names {before bytes rest : List UInt8} {lexeme : Lexeme}
    {errors : List LexError} (spells : Spelling before bytes lexeme errors rest) :
    lexeme.Names bytes.toArray := by
  intro location
  cases spells with
  | leftParen | rightParen =>
      rw [Keyword.ofBytes_of_not_maySpell (by decide)]
      rfl
  | atom _ known =>
      rw [← Keyword.opcode_atomLexeme bytes.toArray location, known]
      rfl
  | string =>
      rw [Keyword.ofBytes_of_not_maySpell rfl]
      rfl

namespace Lexer

variable {lexer after : Lexer Cursor} {lexeme : Lexeme} {errors : List LexError} {contents : Bytes}

theorem ahead_take_eq_nil (at_end : lexer.tape.ahead = []) :
    (lexer.take lexer.piece).tape.ahead = [] := by
  obtain ⟨rest, ahead_eq, -⟩ := lexer.exists_rest
  rw [ahead_take ahead_eq]
  exact (List.append_eq_nil_iff.mp (ahead_eq.symm.trans at_end)).2

/-- At the end of the input a call comes to the end again. -/
theorem Finds.of_ahead_eq_nil (finds : Finds lexer errors lexeme after)
    (at_end : lexer.tape.ahead = []) : lexeme = .eof ∧ after.tape.ahead = [] := by
  constructor
  · by_contra token
    have shorter := finds.length_ahead_lt token
    rw [at_end] at shorter
    exact Nat.not_lt_zero _ shorter
  · induction finds with
    | finished => exact at_end
    | completes => exact ahead_take_eq_nil at_end
    | goesOn _ _ _ induction => exact induction (ahead_take_eq_nil at_end)

/-- The end of the input has been reached, or the lexer is between two tokens. -/
def Settled (lexer : Lexer Cursor) : Prop :=
  lexer.tape.ahead = [] ∨ lexer.Between

/-- A call of a settled lexer comes to a lexeme that names the instruction of its bytes, and leaves
the lexer settled. -/
theorem Settled.names (settled : lexer.Settled) (tidy : lexer.Tidy)
    (finds : Finds lexer errors lexeme after) :
    lexeme.Names after.tape.pending.toArray ∧ (handOut lexeme after).2.Settled := by
  rcases settled with at_end | between
  · obtain ⟨rfl, after_end⟩ := finds.of_ahead_eq_nil at_end
    have pending_eq : after.tape.pending = [] := (finds.token tidy).2.2
    rw [pending_eq]
    exact ⟨Lexeme.names_eof, .inl after_end⟩
  · rcases (between.stretch finds).cases with
      ⟨rfl, pending_eq, after_end, -⟩ | ⟨gap, gap_errors, own_errors, -, -, -, spells⟩
    · rw [pending_eq]
      exact ⟨Lexeme.names_eof, .inl after_end⟩
    · refine ⟨spells.names, .inr (between.next_of_token finds fun eof => ?_)⟩
      exact spells.kind_ne_eof (congrArg Lexeme.kind eof)

theorem settled_after (filename : String) (lineWidth : Nat) (contents : Bytes) (calls : Nat) :
    ((plain filename lineWidth contents).after calls).Settled := by
  induction calls with
  | zero => exact .inr (between_plain filename lineWidth contents)
  | succ calls induction =>
      have tidy := (after_plain filename lineWidth contents calls).1
      obtain ⟨errors, lexeme, after, finds, next_eq⟩ := exists_finds tidy
      rw [Lexer.after, next_eq]
      exact (induction.names tidy finds).2

/-- Every token that is read names the instruction that its bytes are a word of. -/
theorem reading_names {source : Source} (opens : source.Opens contents) (filename : String)
    (lineWidth size bound calls : Nat)
    (flowing : ((opened filename lineWidth source size bound).after (calls + 1)).tape.stalled =
      false) :
    ((opened filename lineWidth source size bound).reading calls).token.opcode? =
      (Keyword.ofBytes?
        ((opened filename lineWidth source size bound).after (calls + 1)).tape.tokenBytes).bind
          Keyword.opcode? := by
  obtain ⟨reading_eq, place_eq⟩ :=
    reading_eq_plain opens filename lineWidth size bound calls flowing
  have sound := ((sound_opened opens filename lineWidth size bound).after (calls + 1)).sound
  have tidy := (after_plain filename lineWidth contents calls).1
  obtain ⟨errors, lexeme, after, finds, next_eq⟩ := exists_finds tidy
  have names := ((settled_after filename lineWidth contents calls).names tidy finds).1
  rw [Lexer.after, next_eq] at place_eq
  rw [← reading_eq, sound.shows.tokenBytes_eq]
  have pending_eq : (Tape.tokenBytes
      (((opened filename lineWidth source size bound).after (calls + 1)).tape.place contents)) =
        after.tape.pending.toArray :=
    (congrArg (fun lexer => Tape.tokenBytes lexer.tape) place_eq).symm
  rw [pending_eq, reading, next_eq]
  exact names _

end Lexer

/-- Looking atoms up inverts the table of instructions. The token of an atom, and every token that
a lexer reads while no refill fails, names an instruction if and only if its bytes are a word of
it. For every mnemonic the classification comes to the meaning of its own instruction, which for a
scalar constant is a type that leads back to it; no two instructions share a mnemonic, and it makes
no difference in which order the words are filled in. -/
theorem Token.opcode_iff_spelled :
    (∀ bytes location opcode,
      ((Scan.atomLexeme? bytes).bind fun lexeme => (lexeme.token location).opcode?) =
          some opcode ↔ opcode ∈ Opcode.all ∧ opcode.Spelled bytes) ∧
      (∀ {contents : Bytes} {source : Source}, source.Opens contents →
        ∀ filename lineWidth size bound calls,
          let before := Lexer.opened filename lineWidth source size bound
          (before.after (calls + 1)).tape.stalled = false →
            ∀ opcode, (before.reading calls).token.opcode? = some opcode ↔
              opcode ∈ Opcode.all ∧ opcode.Spelled (before.after (calls + 1)).tape.tokenBytes) ∧
      (∀ opcode ∈ Opcode.all, ∃ meaning, Keyword.ofOpcode? opcode = some meaning ∧
        Atom.classify (.ofString opcode.mnemonic) = .keyword meaning) ∧
      (∀ opcode ∈ Opcode.all, opcode.family = .const →
        Scan.atomLexeme? (.ofString opcode.mnemonic) = some ⟨.const, .valueType opcode.result⟩ ∧
          Opcode.scalarConst? opcode.result = some opcode) ∧
      (∀ opcode ∈ Opcode.all, ∀ other ∈ Opcode.all, opcode.mnemonic = other.mnemonic →
        opcode = other) ∧
      ∀ filled : List (Bytes × Keyword), filled.Perm Keyword.table →
        ∀ bytes, filled.lookup bytes = Keyword.table.lookup bytes := by
  refine ⟨fun bytes location opcode => ?_, fun opens filename lineWidth size bound calls => ?_,
    fun opcode defined => ?_, fun opcode defined const => ?_, fun opcode defined other => ?_,
    fun filled perm bytes => Keyword.lookup_perm Keyword.nodup_table perm⟩
  · rw [Keyword.opcode_atomLexeme, Keyword.opcode_ofBytes_iff]
  · intro before flowing opcode
    rw [Lexer.reading_names opens filename lineWidth size bound calls flowing,
      Keyword.opcode_ofBytes_iff]
  · obtain ⟨meaning, meaning_eq, -⟩ := Keyword.exists_ofOpcode defined
    exact ⟨meaning, meaning_eq,
      Keyword.classify_of_ofBytes (Keyword.ofBytes_mnemonic defined meaning_eq)⟩
  · have meaning_eq := Keyword.ofOpcode_of_const const
    have found := Keyword.ofBytes_mnemonic defined meaning_eq
    refine ⟨?_, ?_⟩
    · rw [Scan.atomLexeme?, Keyword.classify_of_ofBytes found]
    · obtain ⟨meaning, same, names⟩ := Keyword.exists_ofOpcode defined
      cases meaning_eq.symm.trans same
      exact names
  · exact Keyword.eq_of_mnemonic_eq defined

/-- The constant of 32-bit integers, from a window of one byte, and the second word of the
conditional, the last words filled in first. -/
theorem Token.opcode_iff_spelled_const :
    let constant : Opcode := ⟨0x041, "i32.const", .const, .i32, .void, .void, 0, 0⟩
    ((Lexer.opened "a.wast" 0 (.ofBytes "i32.const 1".toUTF8.data) 1 4096).reading 0).token.opcode? =
        some constant ∧
      Opcode.scalarConst? .i32 = some constant ∧
      Keyword.table.reverse.lookup (.ofString "if_else") =
        Keyword.table.lookup (.ofString "if_else") := by
  intro constant
  obtain ⟨-, read, -, consts, -, filled⟩ := opcode_iff_spelled
  have defined : constant ∈ Opcode.all := by decide +kernel
  refine ⟨?_, (consts constant defined rfl).2, filled _ (List.reverse_perm _) _⟩
  exact (read (Source.opens_ofBytes "i32.const 1".toUTF8.data) "a.wast" 0 1 4096 0
    (by decide +kernel) constant).mpr ⟨defined, .inl (by decide +kernel)⟩

end WasmText
