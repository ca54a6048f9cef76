import WasmText.Proofs.Atom
import WasmText.Proofs.Bytes.Lossy

/-!
# Tokens on one line

A token is displayed on one line if its bytes are on one. The names of kinds, types and forms have
no newlines inside, and the mnemonic of an instruction is the word that was read.
-/

namespace WasmText

theorem TokenKind.oneLine_name (kind : TokenKind) : OneLine kind.name := by
  cases kind <;> decide

theorem ValueType.oneLine_name (type : ValueType) : OneLine type.name := by
  cases type <;> decide

theorem LiteralForm.oneLine_name (form : LiteralForm) : OneLine form.name := by
  cases form <;> decide

namespace Keyword

variable {bytes : Bytes} {word : String} {kind : TokenKind} {opcode named : Opcode}

/-- The mnemonic of an instruction means that instruction. -/
theorem eq_of_ofOpcode (meaning : ofOpcode? opcode = some (.instruction kind named)) :
    named = opcode := by
  unfold ofOpcode? at meaning
  split at meaning
  case h_2 | h_3 =>
    obtain ⟨kind, -, same⟩ := Option.map_eq_some_iff.mp meaning
    cases same
    rfl
  all_goals
    cases meaning <;> rfl

/-- The one word that is no mnemonic means an instruction with another. -/
theorem oneLine_of_mem (present : (word, .instruction kind opcode) ∈ words)
    (line : OneLine word) : OneLine opcode.mnemonic := by
  unfold words at present
  simp only [List.mem_append, List.mem_map] at present
  rcases present with ((⟨entry, -, same⟩ | second_word) | ⟨entry, -, same⟩) | mnemonic
  · cases same
  · obtain ⟨named, found, same⟩ := Option.map_eq_some_iff.mp (Option.mem_toList.mp second_word)
    cases same
    have spelled := @List.find?_some _ _ _ _ found
    rw [eq_of_beq spelled]
    decide
  · cases same
  · obtain ⟨named, -, found⟩ := List.mem_filterMap.mp mnemonic
    obtain ⟨meaning, meaning_eq, same⟩ := Option.map_eq_some_iff.mp found
    cases same
    rw [eq_of_ofOpcode meaning_eq]
    exact line

theorem oneLine_of_ofBytes (meaning : ofBytes? bytes = some (.instruction kind opcode))
    (no_newline : Ascii.newline ∉ bytes.toList) : OneLine opcode.mnemonic := by
  unfold ofBytes? at meaning
  split at meaning
  · obtain ⟨before, after, split, -⟩ := List.lookup_eq_some_iff.mp meaning
    have present : (bytes, .instruction kind opcode) ∈ table := by rw [split]; simp
    obtain ⟨⟨word, meaning⟩, word_mem, same⟩ := List.mem_map.mp present
    cases same
    exact oneLine_of_mem word_mem (Bytes.oneLine_of_ofString no_newline)
  · cases meaning

end Keyword

/-- What is said beyond its kind by an atom on one line stays on a line. -/
theorem Atom.oneLine_payload {bytes : Bytes} {lexeme : Lexeme}
    (known : Scan.atomLexeme? bytes = some lexeme) (no_newline : Ascii.newline ∉ bytes.toList) :
    OneLine lexeme.payload.display := by
  have part (first last : Nat) : OneLine (Bytes.toText (bytes.extract first last)) := by
    refine Bytes.oneLine_toText fun newline => no_newline ?_
    rw [Array.mem_toList_iff] at newline ⊢
    exact Bytes.mem_of_mem_extract newline
  unfold Scan.atomLexeme? at known
  rcases classify_cases bytes with ⟨keyword, meaning, same⟩ | same | ⟨-, same⟩ | ⟨-, same⟩ | same
  · rw [same] at known
    cases keyword with
    | plain =>
        cases known
        exact nofun
    | typed kind type =>
        cases known
        exact type.oneLine_name
    | «instruction» kind opcode =>
        cases known
        exact Keyword.oneLine_of_ofBytes meaning no_newline
  · rw [same] at known
    cases known
    exact Bytes.oneLine_toText no_newline
  · rw [same] at known
    cases known
    exact part _ _
  · rw [same] at known
    cases known
    exact part _ _
  · rw [same] at known
    rcases ofNumber_cases bytes.toList with none_eq | ⟨kind, form, number_eq, -⟩
    · rw [none_eq] at known
      cases known
    · rw [number_eq] at known
      cases known
      exact OneLine.append_iff.mpr
        ⟨OneLine.append_iff.mpr ⟨form.oneLine_name, by decide⟩, Bytes.oneLine_toText no_newline⟩

namespace Location

theorem oneLine_span (location : Location) : OneLine location.span := by
  simp only [span, OneLine.append_iff]
  exact ⟨⟨⟨⟨.ofNat _, by decide⟩, .ofNat _⟩, by decide⟩, .ofNat _⟩

theorem oneLine_display {location : Location} (line : OneLine location.filename) :
    OneLine location.display := by
  simp only [display, OneLine.append_iff]
  exact ⟨⟨⟨⟨line, by decide⟩, .ofNat _⟩, by decide⟩, .ofNat _⟩

end Location

/-- A token is displayed on one line if what it says is on one. -/
theorem Token.oneLine_display {token : Token} (line : OneLine token.payload.display) :
    OneLine token.display := by
  unfold display
  split
  · simp only [OneLine.append_iff]
    exact ⟨⟨token.kind.oneLine_name, by decide⟩, token.location.oneLine_span⟩
  · simp only [OneLine.append_iff]
    exact ⟨⟨⟨⟨token.kind.oneLine_name, by decide⟩, line⟩, by decide⟩, token.location.oneLine_span⟩

end WasmText
