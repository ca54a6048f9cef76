import Mathlib.Data.List.Nodup
import WasmText.Lexer.Lexeme
import WasmText.Proofs.Classification

/-!
# Words and their meanings

No two words of the keyword table are spelled alike, so that every entry can be looked up and the
order of the table says nothing. Behind the look-up stands the opcode table: an atom names an
instruction if and only if it is the instruction's mnemonic or the second word of the conditional.
-/

namespace WasmText

namespace Keyword

/-! ### Telling words apart -/

/-- Whether numbers differ from each other and from those that are marked as seen. -/
def areFresh (seen : Nat) : List Nat → Bool
  | [] => true
  | number :: numbers => !seen.testBit number && areFresh (seen ||| 1 <<< number) numbers

theorem nodup_of_areFresh {numbers : List Nat} {seen : Nat} (fresh : areFresh seen numbers = true) :
    numbers.Nodup ∧ ∀ number ∈ numbers, seen.testBit number = false := by
  induction numbers generalizing seen with
  | nil => exact ⟨List.nodup_nil, fun _ => nofun⟩
  | cons first others induction =>
      obtain ⟨unseen, others_fresh⟩ := (Bool.and_eq_true _ _).mp fresh
      obtain ⟨nodup, apart⟩ := induction others_fresh
      -- The mask of the others is the one before with the bit of the first number added.
      simp only [Nat.testBit_or, Bool.or_eq_false_iff] at apart
      refine ⟨List.nodup_cons.mpr ⟨fun repeated => ?_, nodup⟩, ?_⟩
      · have marked := (apart first repeated).2
        rw [Nat.one_shiftLeft, Nat.testBit_two_pow_self] at marked
        cases marked
      · exact List.forall_mem_cons.mpr
          ⟨Bool.not_eq_eq_eq_not.mp unseen, fun number later => (apart number later).1⟩

/-- A number for a word, by which those of the table can be told apart. -/
def digest (bytes : Bytes) : Nat :=
  bytes.toList.foldl (fun number byte => 0x100 * number + byte.toNat) 0 % 0x1ffff

set_option maxRecDepth 100000 in
theorem areFresh_table : areFresh 0 (table.map fun entry => digest entry.1) = true := by
  decide +kernel

/-- No two words are spelled alike. -/
theorem nodup_table : (table.map Prod.fst).Nodup := by
  refine List.Nodup.of_map digest ?_
  rw [List.map_map]
  exact (nodup_of_areFresh areFresh_table).1

/-! ### Looking words up -/

section Lookup

variable {α β : Type} [BEq α] [LawfulBEq α] {entries filled : List (α × β)} {key : α} {value : β}

/-- Where no two keys are the same, every entry can be looked up. -/
theorem lookup_eq_some_iff_mem (nodup : (entries.map Prod.fst).Nodup) :
    entries.lookup key = some value ↔ (key, value) ∈ entries := by
  rw [List.lookup_eq_some_iff]
  constructor
  · rintro ⟨before, after, rfl, -⟩
    exact List.mem_append_right before List.mem_cons_self
  · intro present
    obtain ⟨before, after, rfl⟩ := List.append_of_mem present
    refine ⟨before, after, rfl, fun entry earlier => bne_iff_ne.mpr fun same => ?_⟩
    rw [List.map_append, List.nodup_append] at nodup
    exact nodup.2.2 entry.1 (List.mem_map_of_mem earlier) key List.mem_cons_self same.symm

/-- Where no two keys are the same, entries may be filled in any order. -/
theorem lookup_perm (nodup : (entries.map Prod.fst).Nodup) (perm : filled.Perm entries) :
    filled.lookup key = entries.lookup key := by
  have filled_nodup : (filled.map Prod.fst).Nodup := (perm.map Prod.fst).nodup_iff.mpr nodup
  refine Option.ext fun value => ?_
  rw [lookup_eq_some_iff_mem nodup, lookup_eq_some_iff_mem filled_nodup, perm.mem_iff]

end Lookup

variable {bytes : Bytes} {word : String} {meaning : Keyword} {opcode : Opcode}

/-- The meanings of words are those that the table gives. -/
theorem ofBytes_eq_some_iff : ofBytes? bytes = some meaning ↔ (bytes, meaning) ∈ table := by
  rw [ofBytes?, ← lookup_eq_some_iff_mem nodup_table]
  split
  · exact Iff.rfl
  · rename_i no_word
    refine iff_of_false (Option.some_ne_none meaning).symm fun found => ?_
    exact no_word (Grammar.table_spelling _ ((lookup_eq_some_iff_mem nodup_table).mp found)).1

/-- What a word means, if it has a meaning, is what the atom is classified as. -/
theorem classify_of_ofBytes (spelled : ofBytes? bytes = some meaning) :
    Atom.classify bytes = .keyword meaning := by
  rw [Atom.classify, spelled]

/-! ### The words of instructions -/

/-- The instruction that a word names. The word of a scalar constant names it by its type. -/
def opcode? : Keyword → Option Opcode
  | plain _ => none
  | typed kind type => if kind = .const then Opcode.scalarConst? type else none
  | «instruction» _ opcode => some opcode

/-- Every instruction has a meaning, which names it. A constant is found again by its type. -/
theorem exists_ofOpcode (defined : opcode ∈ Opcode.all) :
    ∃ meaning, ofOpcode? opcode = some meaning ∧ meaning.opcode? = some opcode := by
  have all_named :
      ∀ opcode ∈ Opcode.all, (ofOpcode? opcode).bind Keyword.opcode? = some opcode := by
    decide +kernel
  exact Option.bind_eq_some_iff.mp (all_named opcode defined)

theorem mem_table_of_mem_words (present : (word, meaning) ∈ words) :
    (.ofString word, meaning) ∈ table :=
  List.mem_map_of_mem (f := fun entry : String × Keyword => (Bytes.ofString entry.1, entry.2))
    present

/-- The mnemonic of an instruction is a word. -/
theorem mem_words_of_ofOpcode (defined : opcode ∈ Opcode.all)
    (meaning_eq : ofOpcode? opcode = some meaning) : (opcode.mnemonic, meaning) ∈ words :=
  List.mem_append_right _ (List.mem_filterMap.mpr
    ⟨opcode, defined, Option.map_eq_some_iff.mpr ⟨meaning, meaning_eq, rfl⟩⟩)

/-- The mnemonic of an instruction has the meaning of that instruction. -/
theorem ofBytes_mnemonic (defined : opcode ∈ Opcode.all)
    (meaning_eq : ofOpcode? opcode = some meaning) :
    ofBytes? (.ofString opcode.mnemonic) = some meaning :=
  ofBytes_eq_some_iff.mpr (mem_table_of_mem_words (mem_words_of_ofOpcode defined meaning_eq))

/-- The meaning of a scalar constant is the type of its result. -/
theorem ofOpcode_of_const (const : opcode.family = .const) :
    ofOpcode? opcode = some (.typed .const opcode.result) := by
  rw [ofOpcode?, const]

/-- The conditional instruction is the one with the code four. -/
theorem ofMnemonic_if_iff :
    Opcode.ofMnemonic? "if" = some opcode ↔ opcode ∈ Opcode.all ∧ opcode.code = 0x04 := by
  have conditional :
      ∀ opcode ∈ Opcode.all, Opcode.ofMnemonic? "if" = some opcode ↔ opcode.code = 0x04 := by
    decide +kernel
  constructor
  · intro found
    have defined := List.mem_of_find?_eq_some found
    exact ⟨defined, (conditional opcode defined).mp found⟩
  · rintro ⟨defined, code_eq⟩
    exact (conditional opcode defined).mpr code_eq

theorem mem_aliasWords_iff :
    (word, meaning) ∈ aliasWords ↔ word = "if_else" ∧
      ∃ opcode ∈ Opcode.all, opcode.code = 0x04 ∧ meaning = .instruction .ifBlock opcode := by
  rw [aliasWords, Option.mem_toList, Option.map_eq_some_iff]
  constructor
  · rintro ⟨opcode, found, same⟩
    cases same
    obtain ⟨defined, code_eq⟩ := ofMnemonic_if_iff.mp found
    exact ⟨rfl, opcode, defined, code_eq, rfl⟩
  · rintro ⟨rfl, opcode, defined, code_eq, rfl⟩
    exact ⟨opcode, ofMnemonic_if_iff.mpr ⟨defined, code_eq⟩, rfl⟩

end Keyword

/-- The bytes are a word of the instruction: its mnemonic or, of the conditional one, a second
word. -/
def Opcode.Spelled (opcode : Opcode) (bytes : Bytes) : Prop :=
  bytes = .ofString opcode.mnemonic ∨ bytes = .ofString "if_else" ∧ opcode.code = 0x04

namespace Keyword

variable {bytes : Bytes} {meaning : Keyword} {opcode : Opcode}

/-- A word that names an instruction is a word of that instruction. -/
theorem spelled_of_mem (present : (bytes, meaning) ∈ table)
    (named : meaning.opcode? = some opcode) : opcode ∈ Opcode.all ∧ opcode.Spelled bytes := by
  obtain ⟨⟨word, meaning⟩, word_mem, same⟩ := List.mem_map.mp present
  cases same
  unfold words at word_mem
  simp only [List.mem_append, List.mem_map] at word_mem
  rcases word_mem with ((⟨entry, -, same⟩ | second_word) | ⟨entry, -, same⟩) | mnemonic
  · cases same
    cases named
  · obtain ⟨rfl, conditional, defined, code_eq, rfl⟩ := mem_aliasWords_iff.mp second_word
    cases named
    exact ⟨defined, .inr ⟨rfl, code_eq⟩⟩
  · cases same
    cases named
  · obtain ⟨defined_opcode, defined, found⟩ := List.mem_filterMap.mp mnemonic
    obtain ⟨meaning, meaning_eq, same⟩ := Option.map_eq_some_iff.mp found
    cases same
    obtain ⟨_, same_eq, names⟩ := exists_ofOpcode defined
    cases meaning_eq.symm.trans same_eq
    cases names.symm.trans named
    exact ⟨defined, .inl rfl⟩

/-- Every word of an instruction names it. -/
theorem exists_mem_of_spelled (defined : opcode ∈ Opcode.all) (spelled : opcode.Spelled bytes) :
    ∃ meaning, (bytes, meaning) ∈ table ∧ meaning.opcode? = some opcode := by
  rcases spelled with rfl | ⟨rfl, code_eq⟩
  · obtain ⟨meaning, meaning_eq, names⟩ := exists_ofOpcode defined
    exact ⟨meaning, mem_table_of_mem_words (mem_words_of_ofOpcode defined meaning_eq), names⟩
  · have second_word : ("if_else", Keyword.instruction .ifBlock opcode) ∈ words :=
      List.mem_append_left _ (List.mem_append_left _ (List.mem_append_right _
        (mem_aliasWords_iff.mpr ⟨rfl, opcode, defined, code_eq, rfl⟩)))
    exact ⟨_, mem_table_of_mem_words second_word, rfl⟩

/-- The look-up of words and the table of instructions agree. -/
theorem opcode_ofBytes_iff :
    (ofBytes? bytes).bind Keyword.opcode? = some opcode ↔
      opcode ∈ Opcode.all ∧ opcode.Spelled bytes := by
  rw [Option.bind_eq_some_iff]
  simp only [ofBytes_eq_some_iff]
  constructor
  · rintro ⟨meaning, present, named⟩
    exact spelled_of_mem present named
  · rintro ⟨defined, spelled⟩
    exact exists_mem_of_spelled defined spelled

/-- Instructions with the same mnemonic are the same. -/
theorem eq_of_mnemonic_eq {other : Opcode} (defined : opcode ∈ Opcode.all)
    (other_defined : other ∈ Opcode.all) (same : opcode.mnemonic = other.mnemonic) :
    opcode = other := by
  have found := opcode_ofBytes_iff.mpr ⟨defined, .inl rfl⟩
  rw [same, opcode_ofBytes_iff.mpr ⟨other_defined, .inl rfl⟩] at found
  exact (Option.some.inj found).symm

end Keyword

end WasmText
