import Mathlib.Data.List.Basic
import WasmText.Lexer.Lexeme

/-!
# What atoms say

A lexeme says what its bytes are: names, strings and numbers as a whole, offsets and alignments
without their word. Words never get a kind that says more of the bytes than they do.
-/

namespace WasmText

/-- The kind of a word's token. -/
def Keyword.kind : Keyword → TokenKind
  | plain kind | typed kind _ | instruction kind _ => kind

/-- Whether tokens of a kind are made of words. -/
def TokenKind.isWord : TokenKind → Bool
  | eof | lpar | rpar | nat | int | float | text | var | offsetEqNat | alignEqNat => false
  | _ => true

namespace Keyword

theorem isWord_ofOpcode {opcode : Opcode} {keyword : Keyword}
    (meaning : ofOpcode? opcode = some keyword) : keyword.kind.isWord = true := by
  have sole_words : ∀ entry ∈ soleInstructions, entry.2.isWord = true := by decide
  unfold ofOpcode? at meaning
  split at meaning
  case h_2 | h_3 =>
    obtain ⟨kind, found, rfl⟩ := Option.map_eq_some_iff.mp meaning
    obtain ⟨before, after, split, -⟩ := List.lookup_eq_some_iff.mp found
    exact sole_words (opcode.mnemonic, kind) (by rw [split]; simp)
  all_goals
    cases meaning <;> rfl

theorem isWord_of_mem {word : String} {keyword : Keyword} (present : (word, keyword) ∈ words) :
    keyword.kind.isWord = true := by
  have reserved : ∀ entry ∈ reservedWords, entry.2.isWord = true := by decide
  unfold words at present
  simp only [List.mem_append, List.mem_map] at present
  rcases present with ((⟨entry, entry_mem, same⟩ | second_word) | ⟨entry, entry_mem, same⟩) |
      mnemonic
  · cases same
    exact reserved _ entry_mem
  · obtain ⟨opcode, -, same⟩ := Option.map_eq_some_iff.mp (Option.mem_toList.mp second_word)
    cases same
    rfl
  · cases same
    rfl
  · obtain ⟨opcode, -, found⟩ := List.mem_filterMap.mp mnemonic
    obtain ⟨meaning, meaning_eq, same⟩ := Option.map_eq_some_iff.mp found
    cases same
    exact isWord_ofOpcode meaning_eq

/-- The words have none of the kinds of other lexemes. -/
theorem isWord_ofBytes {bytes : Bytes} {keyword : Keyword}
    (meaning : ofBytes? bytes = some keyword) : keyword.kind.isWord = true := by
  unfold ofBytes? at meaning
  split at meaning
  · obtain ⟨before, after, split, -⟩ := List.lookup_eq_some_iff.mp meaning
    have present : (bytes, keyword) ∈ table := by rw [split]; simp
    obtain ⟨⟨word, meaning⟩, word_mem, same⟩ := List.mem_map.mp present
    cases same
    exact isWord_of_mem word_mem
  · cases meaning

end Keyword

/-- What the payload of a lexeme has to do with its bytes. -/
def Lexeme.Says (bytes : List UInt8) (lexeme : Lexeme) : Prop :=
  match lexeme.kind with
  | .eof => lexeme.payload = .none ∧ bytes = []
  | .text | .var => lexeme.payload = .text bytes.toArray
  | .nat | .int | .float => ∃ form, lexeme.payload = .literal form bytes.toArray
  | .offsetEqNat =>
    ∃ number : List UInt8, lexeme.payload = .text number.toArray ∧
      bytes = Number.spelled Atom.offsetWord ++ number
  | .alignEqNat =>
    ∃ number : List UInt8, lexeme.payload = .text number.toArray ∧
      bytes = Number.spelled Atom.alignWord ++ number
  | _ => ∀ taken form, lexeme.payload ≠ .text taken ∧ lexeme.payload ≠ .literal form taken

/-- A kind that words have says nothing more of the bytes. -/
theorem Lexeme.says_word {bytes : List UInt8} {lexeme : Lexeme} (word : lexeme.kind.isWord = true)
    (silent : ∀ taken form, lexeme.payload ≠ .text taken ∧ lexeme.payload ≠ .literal form taken) :
    lexeme.Says bytes := by
  unfold Says
  split <;> first
    | exact silent
    | rename_i kind_eq
      rw [kind_eq] at word
      cases word

namespace Atom

/-- What is left of a word and a natural without the word. -/
theorem extract_of_isWordAndNat {word : String} {bytes : Bytes}
    (size_eq : (Number.spelled word).length = word.utf8ByteSize)
    (spelled : isWordAndNat word bytes.toList = true) :
    bytes.toList =
      Number.spelled word ++ (bytes.extract word.utf8ByteSize bytes.size).toList := by
  unfold isWordAndNat at spelled
  split at spelled
  · cases spelled
  · rename_i digits stripped
    have whole := (List.isPrefixOf?_eq_some_iff_append_eq.mp stripped).symm
    rw [Array.toList_extract, List.extract_eq_take_drop, ← Array.length_toList, whole, ← size_eq,
      List.drop_left, List.length_append, Nat.add_sub_cancel_left, List.take_length]

/-- The ways in which a run of bytes is classified. -/
theorem classify_cases (bytes : Bytes) :
    (∃ keyword, Keyword.ofBytes? bytes = some keyword ∧ classify bytes = .keyword keyword) ∨
      classify bytes = .var ∨
      (isWordAndNat offsetWord bytes.toList = true ∧ classify bytes = .offset) ∨
      (isWordAndNat alignWord bytes.toList = true ∧ classify bytes = .align) ∨
      classify bytes = (ofNumber? bytes.toList).getD .unknown := by
  unfold classify
  split
  · rename_i keyword meaning
    exact .inl ⟨keyword, meaning, rfl⟩
  dsimp only
  split
  · exact .inr (.inl rfl)
  split
  · rename_i offset
    exact .inr (.inr (.inl ⟨offset, rfl⟩))
  split
  · rename_i align
    exact .inr (.inr (.inr (.inl ⟨align, rfl⟩)))
  · exact .inr (.inr (.inr (.inr rfl)))

/-- Numbers have the kinds of numbers. -/
theorem ofNumber_cases (bytes : List UInt8) :
    ofNumber? bytes = none ∨ ∃ kind form, ofNumber? bytes = some (.number kind form) ∧
      (kind = .nat ∨ kind = .int ∨ kind = .float) := by
  unfold ofNumber?
  split
  · exact .inr ⟨_, _, rfl, .inl rfl⟩
  split
  · exact .inr ⟨_, _, rfl, .inr (.inl rfl)⟩
  · cases Number.floatForm? (Number.unsigned bytes) with
    | none => exact .inl rfl
    | some form => exact .inr ⟨_, _, rfl, .inr (.inr rfl)⟩

/-- What an atom's lexeme says of it. -/
theorem says_atomLexeme {bytes : Bytes} {lexeme : Lexeme}
    (known : Scan.atomLexeme? bytes = some lexeme) : lexeme.Says bytes.toList := by
  unfold Scan.atomLexeme? at known
  rcases classify_cases bytes with ⟨keyword, meaning, same⟩ | same | ⟨spelled, same⟩ |
      ⟨spelled, same⟩ | same
  · have word := Keyword.isWord_ofBytes meaning
    rw [same] at known
    cases keyword
    all_goals
      cases known
      exact Lexeme.says_word word fun _ _ => ⟨nofun, nofun⟩
  · rw [same] at known
    cases known
    exact congrArg Payload.text Array.toArray_toList.symm
  · rw [same] at known
    cases known
    exact ⟨_, congrArg Payload.text Array.toArray_toList.symm,
      extract_of_isWordAndNat (by decide) spelled⟩
  · rw [same] at known
    cases known
    exact ⟨_, congrArg Payload.text Array.toArray_toList.symm,
      extract_of_isWordAndNat (by decide) spelled⟩
  · rw [same] at known
    rcases ofNumber_cases bytes.toList with none_eq | ⟨kind, form, number_eq, kind_cases⟩
    · rw [none_eq] at known
      cases known
    · rw [number_eq] at known
      cases known
      have literal : Payload.literal form bytes = .literal form bytes.toList.toArray :=
        congrArg _ Array.toArray_toList.symm
      rcases kind_cases with rfl | rfl | rfl
      all_goals exact ⟨form, literal⟩

end Atom

end WasmText
