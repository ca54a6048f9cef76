import WasmText.Atom
import WasmText.Proofs.Number

/-!
# Classification

What a run of atom bytes is follows from the grammar alone. Its languages have no word in common,
as a look at the first byte or at a byte that only one of two languages uses shows. So at most one
of the checks that classification makes succeeds, and their order says nothing.
-/

open Computability

namespace WasmText

namespace Grammar

/-- The words with a meaning. -/
def keyword : Language UInt8 :=
  {bytes | ∃ meaning, (bytes.toArray, meaning) ∈ Keyword.table}

/-- Names: a dollar sign and at least one byte. -/
def var : Language UInt8 :=
  word "$" * run fun _ => true

/-- Offsets. -/
def offset : Language UInt8 :=
  word "offset=" * nat

/-- Alignments. -/
def align : Language UInt8 :=
  word "align=" * nat

/-- Numbers. -/
def numbers : List (Language UInt8) :=
  [nat, int, hexFloat, float, infinity, nan]

/-- What a run of atom bytes may be. -/
def atoms : List (Language UInt8) :=
  keyword :: var :: offset :: align :: numbers

/-! ### The bytes of atoms -/

/-- Signs, hexadecimal digits and the bytes of a word. -/
def numeral (extra : String) (byte : UInt8) : Bool :=
  Number.isSign byte || Ascii.isHexDigit byte || (Number.spelled extra).contains byte

variable {extra : String} {byte : UInt8} {body : Language UInt8}

theorem numeral_of_isSign (signed : Number.isSign byte = true) : numeral extra byte = true := by
  simp [numeral, signed]

theorem numeral_of_isHexDigit (hexadecimal : Ascii.isHexDigit byte = true) :
    numeral extra byte = true := by
  simp [numeral, hexadecimal]

theorem numeral_of_isDigit (decimal : Ascii.isDigit byte = true) : numeral extra byte = true :=
  numeral_of_isHexDigit (by simp [Ascii.isHexDigit, decimal])

theorem numeral_of_isExponentMark (mark : Number.isExponentMark byte = true) :
    numeral extra byte = true := by
  rcases Bool.or_eq_true_iff.mp mark with same | same
  all_goals
    rw [eq_of_beq same]
    exact numeral_of_isHexDigit (by decide)

theorem madeOf_sign : MadeOf (numeral extra) (maybe sign) :=
  (MadeOf.anyOf fun _ => numeral_of_isSign).maybe

theorem madeOf_digits : MadeOf (numeral extra) digits :=
  MadeOf.run fun _ => numeral_of_isDigit

theorem madeOf_hexDigits : MadeOf (numeral extra) hexDigits :=
  MadeOf.run fun _ => numeral_of_isHexDigit

theorem madeOf_nat (hexadecimal : (Number.spelled "0x").all (numeral extra) = true) :
    MadeOf (numeral extra) nat :=
  madeOf_digits.add ((MadeOf.word hexadecimal).mul madeOf_hexDigits)

theorem madeOf_offset : MadeOf (numeral "xoffset=") offset :=
  (MadeOf.word (by decide)).mul (madeOf_nat (by decide))

theorem madeOf_align : MadeOf (numeral "xalign=") align :=
  (MadeOf.word (by decide)).mul (madeOf_nat (by decide))

theorem madeOf_int : MadeOf (numeral "x") int :=
  (MadeOf.anyOf fun _ => numeral_of_isSign).mul (madeOf_nat (by decide))

theorem madeOf_float : MadeOf (numeral ".") float := by
  have fraction : MadeOf (numeral ".") (word "." * digit∗) :=
    (MadeOf.word (by decide)).mul (MadeOf.star fun _ => numeral_of_isDigit)
  have mark : MadeOf (numeral ".") (anyOf Number.isExponentMark) :=
    MadeOf.anyOf fun _ => numeral_of_isExponentMark
  refine madeOf_sign.mul (MadeOf.add ?_ ?_)
  · rw [mul_assoc]
    exact madeOf_digits.mul fraction
  · exact (((madeOf_digits.mul fraction.maybe).mul mark).mul madeOf_sign).mul madeOf_digits

theorem madeOf_hexFloat : MadeOf (numeral "x.p") hexFloat := by
  have front : MadeOf (numeral "x.p") (word "0x" * hexDigits * maybe (word ".") * hexDigit∗) :=
    (((MadeOf.word (by decide)).mul madeOf_hexDigits).mul (MadeOf.word (by decide)).maybe).mul
      (MadeOf.star fun _ => numeral_of_isHexDigit)
  exact madeOf_sign.mul (((front.mul (MadeOf.word (by decide))).mul madeOf_sign).mul madeOf_digits)

theorem madeOf_nan : MadeOf (numeral "n:x") nan :=
  madeOf_sign.mul ((MadeOf.word (by decide)).add ((MadeOf.word (by decide)).mul madeOf_hexDigits))

/-- Signs and the letters of the word for infinities. -/
def infinityByte (byte : UInt8) : Bool :=
  Number.isSign byte || (Number.spelled "infty").contains byte

theorem madeOf_infinity : MadeOf infinityByte infinity := by
  have signed : MadeOf infinityByte sign := MadeOf.anyOf fun byte signed => by
    rw [infinityByte, signed, Bool.true_or]
  exact signed.maybe.mul ((MadeOf.word (by decide)).add (MadeOf.word (by decide)))

/-! ### The bytes that tell atoms apart -/

theorem marked_var : Marked [Ascii.ofChar '$'] var :=
  (Marked.word (by decide)).mul_left

theorem marked_offset {mark : UInt8} (present : mark ∈ Number.spelled "offset=") :
    Marked [mark] offset :=
  (Marked.word ⟨mark, List.mem_singleton_self mark, present⟩).mul_left

theorem marked_align : Marked [Ascii.ofChar '='] align :=
  (Marked.word (by decide)).mul_left

theorem marked_float : Marked (Number.spelled ".eE") float := by
  refine Marked.mul_right (Marked.add ?_ ?_)
  · exact (Marked.word (by decide)).mul_right.mul_left
  · refine Marked.mul_left (Marked.mul_left (Marked.mul_right ?_))
    rintro _ ⟨byte, mark, rfl⟩
    rcases Bool.or_eq_true_iff.mp mark with same | same
    all_goals
      rw [eq_of_beq same]
      decide

theorem marked_hexFloat_front : Marked [Ascii.ofChar 'x'] hexFloat := by
  rw [hexFloat, unsignedHexFloat, mul_assoc, mul_assoc, mul_assoc, mul_assoc, mul_assoc]
  exact (Marked.word (by decide)).mul_left.mul_right

theorem marked_hexFloat_exponent : Marked [Ascii.ofChar 'p'] hexFloat :=
  Marked.mul_right (Marked.word (by decide)).mul_right.mul_left.mul_left

theorem marked_infinity : Marked [Ascii.ofChar 'n'] infinity :=
  Marked.mul_right ((Marked.word (by decide)).add (Marked.word (by decide)))

theorem marked_nan {mark : UInt8} (short : mark ∈ Number.spelled "nan")
    (long : mark ∈ Number.spelled "nan:0x") : Marked [mark] nan :=
  Marked.mul_right ((Marked.word ⟨mark, List.mem_singleton_self mark, short⟩).add
    (Marked.word ⟨mark, List.mem_singleton_self mark, long⟩).mul_left)

/-! ### The words of the table -/

/-- The bytes of words: small letters, digits and three symbols. -/
def wordByte (byte : UInt8) : Bool :=
  Ascii.isSmallLetter byte || Ascii.isDigit byte || (Number.spelled "_./").contains byte

/-- The words of the table begin with small letters and are none of those for infinities and
NaNs. -/
theorem table_spelling :
    ∀ entry ∈ Keyword.table, Keyword.maySpell entry.1 = true ∧
      entry.1.toList.all wordByte = true ∧
        entry.1.toList ∉ ["inf", "infinity", "nan"].map Number.spelled := by
  decide +kernel

theorem madeOf_keyword : MadeOf wordByte keyword := by
  rintro bytes ⟨meaning, present⟩
  exact List.all_eq_true.mp (table_spelling _ present).2.1

theorem begins_keyword : Begins Ascii.isSmallLetter keyword := by
  rintro bytes ⟨meaning, present⟩
  have small : Ascii.isSmallLetter (Bytes.getOrZero bytes.toArray 0) = true :=
    (table_spelling _ present).1
  cases bytes with
  | nil => exact absurd small (by decide)
  | cons byte rest => exact ⟨byte, rest, small, rfl⟩

/-- A language that begins with digits has none of the words. -/
theorem keyword_disjoint_of_begins (begins : Begins Ascii.isDigit body) :
    Disjoint keyword body := by
  refine begins_keyword.disjoint (begins.stops fun byte small => ?_)
  simp only [Ascii.isSmallLetter, Ascii.isDigit, Bool.and_eq_true, decide_eq_true_eq,
    Bool.and_eq_false_iff, decide_eq_false_iff_not, UInt8.le_iff_toNat_le] at small ⊢
  exact .inr fun digit => absurd (Nat.le_trans small.1 digit) (by decide)

/-- No word begins with a sign. -/
theorem keyword_disjoint_signed (apart : Disjoint keyword body) :
    Disjoint keyword (maybe sign * body) := by
  refine Set.disjoint_left.mpr fun bytes mem signed => ?_
  rcases mem_maybe_mul.mp signed with unsigned | signed
  · exact Set.disjoint_left.mp apart mem unsigned
  · obtain ⟨byte, rest, isSign, -, rfl⟩ := mem_anyOf_mul.mp signed
    exact begins_keyword.stops_isSign (by decide) (by decide) byte rest isSign mem

theorem keyword_disjoint_word (text : String)
    (listed : text ∈ ["inf", "infinity", "nan"]) : Disjoint keyword (word text) := by
  refine Set.disjoint_left.mpr fun bytes ⟨meaning, present⟩ same => ?_
  cases same
  exact (table_spelling _ present).2.2 (List.mem_map_of_mem listed)

theorem keyword_disjoint_infinity : Disjoint keyword infinity :=
  keyword_disjoint_signed (disjoint_add_right.mpr
    ⟨keyword_disjoint_word "inf" (by decide), keyword_disjoint_word "infinity" (by decide)⟩)

theorem keyword_disjoint_nan : Disjoint keyword nan := by
  refine keyword_disjoint_signed (disjoint_add_right.mpr
    ⟨keyword_disjoint_word "nan" (by decide), ?_⟩)
  have colon : Marked [Ascii.ofChar ':'] (word "nan:0x" * hexDigits) :=
    (Marked.word (by decide)).mul_left
  exact (colon.disjoint madeOf_keyword (by decide)).symm

/-! ### Disjointness -/

/-- Naturals are digits, or they have an `x` in them, which floats do not have. -/
theorem signedNat_disjoint_float : Disjoint (maybe sign * nat) float := by
  rw [nat, mul_add]
  refine disjoint_add_left.mpr ⟨?_, ?_⟩
  · have made :
        MadeOf (fun byte => Number.isSign byte || Ascii.isDigit byte) (maybe sign * digits) :=
      (MadeOf.anyOf fun byte signed => by simp [signed]).maybe.mul
        (MadeOf.run fun byte decimal => by simp [decimal])
    exact (marked_float.disjoint made (by decide)).symm
  · have marked : Marked [Ascii.ofChar 'x'] (maybe sign * (word "0x" * hexDigits)) :=
      (Marked.word (by decide)).mul_left.mul_right
    exact marked.disjoint madeOf_float (by decide)

/-- A sign that is there is one that may be there. -/
theorem int_le : int ≤ maybe sign * nat := by
  rw [maybe_mul, int]
  exact le_sup_right

theorem keyword_disjoint_numbers : ∀ number ∈ numbers, Disjoint keyword number := by
  simp only [numbers, List.forall_mem_cons]
  exact ⟨keyword_disjoint_of_begins begins_nat,
    (keyword_disjoint_signed (keyword_disjoint_of_begins begins_nat)).mono_right int_le,
    keyword_disjoint_signed (keyword_disjoint_of_begins begins_unsignedHexFloat),
    keyword_disjoint_signed (keyword_disjoint_of_begins begins_unsignedFloat),
    keyword_disjoint_infinity, keyword_disjoint_nan, List.forall_mem_nil _⟩

/-- Numbers have neither dollar signs nor equals signs in them. -/
theorem marked_disjoint_numbers {mark : UInt8} (marked : Marked [mark] body)
    (foreign : mark = Ascii.ofChar '$' ∨ mark = Ascii.ofChar '=') :
    ∀ number ∈ numbers, Disjoint body number := by
  have nat_made : MadeOf (numeral "x") nat := madeOf_nat (by decide)
  simp only [numbers, List.forall_mem_cons]
  rcases foreign with rfl | rfl
  all_goals
    exact ⟨marked.disjoint nat_made (by decide),
      marked.disjoint madeOf_int (by decide), marked.disjoint madeOf_hexFloat (by decide),
      marked.disjoint madeOf_float (by decide), marked.disjoint madeOf_infinity (by decide),
      marked.disjoint madeOf_nan (by decide), List.forall_mem_nil _⟩

/-- Infinities and NaNs have an `n` in them, other numbers do not. -/
theorem disjoint_infinity_nan {accepts : UInt8 → Bool} (made : MadeOf accepts body)
    (apart : accepts (Ascii.ofChar 'n') = false) :
    ∀ number ∈ [infinity, nan], Disjoint body number := by
  have lacks : [Ascii.ofChar 'n'].any accepts = false := by simp [apart]
  simp only [List.forall_mem_cons]
  exact ⟨(marked_infinity.disjoint made lacks).symm,
    ((marked_nan (by decide) (by decide)).disjoint made lacks).symm, List.forall_mem_nil _⟩

theorem nat_disjoint_int : Disjoint nat int := by
  have begins : Begins Number.isSign int := Begins.mul fun bytes mem => by
    obtain ⟨byte, signed, rfl⟩ := mem
    exact ⟨byte, [], signed, rfl⟩
  exact (begins.disjoint (begins_nat.stops_isSign (by decide) (by decide))).symm

theorem numbers_disjoint : numbers.Pairwise Disjoint := by
  have nat_made : MadeOf (numeral "x") nat := madeOf_nat (by decide)
  have nat_le : nat ≤ maybe sign * nat := by
    rw [maybe_mul]
    exact le_sup_left
  refine .cons ?_ (.cons ?_ (.cons ?_ (.cons ?_ (.cons ?_ (List.pairwise_singleton _ _)))))
  · exact List.forall_mem_cons.mpr ⟨nat_disjoint_int,
      List.forall_mem_cons.mpr ⟨(marked_hexFloat_exponent.disjoint nat_made (by decide)).symm,
        List.forall_mem_cons.mpr ⟨signedNat_disjoint_float.mono_left nat_le,
          disjoint_infinity_nan nat_made (by decide)⟩⟩⟩
  · exact List.forall_mem_cons.mpr
      ⟨(marked_hexFloat_exponent.disjoint madeOf_int (by decide)).symm,
        List.forall_mem_cons.mpr ⟨signedNat_disjoint_float.mono_left int_le,
          disjoint_infinity_nan madeOf_int (by decide)⟩⟩
  · exact List.forall_mem_cons.mpr ⟨marked_hexFloat_front.disjoint madeOf_float (by decide),
      disjoint_infinity_nan madeOf_hexFloat (by decide)⟩
  · exact disjoint_infinity_nan madeOf_float (by decide)
  · have letter : Marked [Ascii.ofChar 'a'] nan := marked_nan (by decide) (by decide)
    exact List.forall_mem_singleton.mpr (letter.disjoint madeOf_infinity (by decide)).symm

/-- The languages of atoms have no word in common. -/
theorem disjoint_atoms : atoms.Pairwise Disjoint := by
  have equals : Marked [Ascii.ofChar '='] offset := marked_offset (by decide)
  have letter : Marked [Ascii.ofChar 'o'] offset := marked_offset (by decide)
  refine .cons ?_ (.cons ?_ (.cons ?_ (.cons ?_ numbers_disjoint)))
  · exact List.forall_mem_cons.mpr ⟨(marked_var.disjoint madeOf_keyword (by decide)).symm,
      List.forall_mem_cons.mpr ⟨(equals.disjoint madeOf_keyword (by decide)).symm,
        List.forall_mem_cons.mpr ⟨(marked_align.disjoint madeOf_keyword (by decide)).symm,
          keyword_disjoint_numbers⟩⟩⟩
  · exact List.forall_mem_cons.mpr ⟨marked_var.disjoint madeOf_offset (by decide),
      List.forall_mem_cons.mpr ⟨marked_var.disjoint madeOf_align (by decide),
        marked_disjoint_numbers marked_var (.inl rfl)⟩⟩
  · exact List.forall_mem_cons.mpr ⟨letter.disjoint madeOf_align (by decide),
      marked_disjoint_numbers equals (.inr rfl)⟩
  · exact marked_disjoint_numbers marked_align (.inr rfl)

end Grammar

namespace Atom

open Grammar hiding word

/-- The check for one kind of atom. -/
def check (known : List UInt8 → Bool) (atom : Atom) (bytes : Bytes) : Option Atom :=
  if known bytes.toList then some atom else none

/-- The checks that classification makes, each by itself. -/
def checks : List (Bytes → Option Atom) :=
  [fun bytes => (Keyword.ofBytes? bytes).map .keyword,
    check (fun bytes => 1 < bytes.length && bytes.head? == some Ascii.dollar) .var,
    check (isWordAndNat offsetWord) .offset,
    check (isWordAndNat alignWord) .align,
    check Number.isNat (.number .nat .int),
    check (fun bytes => bytes.head?.any Number.isSign && Number.isNat (Number.unsigned bytes))
      (.number .int .int),
    check (fun bytes => Number.isHexFloat (Number.unsigned bytes)) (.number .float .hexFloat),
    check (fun bytes => Number.isFloat (Number.unsigned bytes)) (.number .float .float),
    check (fun bytes => Number.isInfinity (Number.unsigned bytes)) (.number .float .infinity),
    check (fun bytes => Number.isNan (Number.unsigned bytes)) (.number .float .nan)]

/-- What the first of some checks to succeed makes of a run of bytes. -/
def classifyBy (checks : List (Bytes → Option Atom)) (bytes : Bytes) : Atom :=
  (checks.findSome? fun check => check bytes).getD .unknown

/-- What a check accepts. -/
def accepted (check : Bytes → Option Atom) : Language UInt8 :=
  {bytes | (check bytes.toArray).isSome = true}

variable {bytes : List UInt8} {known : List UInt8 → Bool} {atom : Atom}

theorem mem_accepted_check : bytes ∈ accepted (check known atom) ↔ known bytes = true := by
  change (check known atom bytes.toArray).isSome = true ↔ _
  rw [check]
  split <;> simp_all

theorem isSome_keyword_iff {bytes : Bytes} :
    (Keyword.ofBytes? bytes).isSome = true ↔ bytes.toList ∈ Grammar.keyword := by
  rw [Keyword.ofBytes?]
  constructor
  · intro found
    split at found
    · obtain ⟨meaning, same⟩ := Option.isSome_iff_exists.mp found
      obtain ⟨before, after, split, -⟩ := List.lookup_eq_some_iff.mp same
      exact ⟨meaning, by rw [split]; exact List.mem_append_right before List.mem_cons_self⟩
    · cases found
  · rintro ⟨meaning, present⟩
    rw [if_pos (table_spelling _ present).1, Option.isSome_iff_ne_none]
    intro missing
    exact absurd (List.lookup_eq_none_iff.mp missing _ present) (by simp)

theorem isVar_iff :
    (1 < bytes.length && bytes.head? == some Ascii.dollar) = true ↔ bytes ∈ Grammar.var := by
  have dollar : Grammar.word "$" = anyOf (· == Ascii.dollar) := word_eq_anyOf rfl
  rw [Grammar.var, dollar]
  match bytes with
  | [] => simp
  | [byte] => simp [mem_run]
  | byte :: second :: rest => simp [mem_run]

theorem isWordAndNat_iff {word : String} :
    isWordAndNat word bytes = true ↔ bytes ∈ Grammar.word word * Grammar.nat := by
  rw [isWordAndNat]
  split
  · rename_i stripped
    exact iff_of_false Bool.false_ne_true (not_mem_word_mul_of_isPrefixOf stripped)
  · rename_i number stripped
    rw [mem_word_mul_of_isPrefixOf stripped, Number.isNat_iff]

theorem isInt_iff :
    (bytes.head?.any Number.isSign && Number.isNat (Number.unsigned bytes)) = true ↔
      bytes ∈ Grammar.int := by
  rw [Grammar.int, Grammar.sign, Bool.and_eq_true, Number.isNat_iff]
  cases bytes with
  | nil => simp
  | cons byte rest =>
      rw [cons_mem_anyOf_mul, List.head?_cons, Option.any_some]
      refine and_congr_right fun signed => ?_
      rw [Number.unsigned, if_pos signed]

/-- Each check accepts its language. -/
theorem accepted_checks : checks.map accepted = atoms := by
  have same {check : Bytes → Option Atom} {language : Language UInt8}
      (accepts : ∀ bytes, bytes ∈ accepted check ↔ bytes ∈ language) : accepted check = language :=
    Set.ext accepts
  simp only [checks, atoms, numbers, List.map_cons, List.map_nil, List.cons.injEq, and_true]
  refine ⟨same fun bytes => ?_, same fun _ => ?_, same fun _ => ?_, same fun _ => ?_,
    same fun _ => ?_, same fun _ => ?_, same fun _ => ?_, same fun _ => ?_, same fun _ => ?_,
    same fun _ => ?_⟩
  · have keyword_iff := @isSome_keyword_iff bytes.toArray
    rw [← Option.isSome_map (f := Atom.keyword)] at keyword_iff
    exact keyword_iff
  all_goals rw [mem_accepted_check]
  · exact isVar_iff
  · exact isWordAndNat_iff
  · exact isWordAndNat_iff
  · exact Number.isNat_iff
  · exact isInt_iff
  · exact Number.isHexFloat_unsigned_iff
  · exact Number.isFloat_unsigned_iff
  · exact Number.isInfinity_unsigned_iff
  · exact Number.isNan_unsigned_iff

/-- Two checks of which at most one succeeds. -/
def Exclusive (first second : Bytes → Option Atom) : Prop :=
  ∀ bytes, first bytes = none ∨ second bytes = none

theorem exclusive_checks : checks.Pairwise Exclusive := by
  have apart := disjoint_atoms
  rw [← accepted_checks, List.pairwise_map] at apart
  refine apart.imp fun {first second} disjoint bytes => ?_
  by_contra both
  rw [not_or] at both
  have first_mem : bytes.toList ∈ accepted first := Option.isSome_iff_ne_none.mpr both.1
  have second_mem : bytes.toList ∈ accepted second := Option.isSome_iff_ne_none.mpr both.2
  exact Set.disjoint_left.mp disjoint first_mem second_mem

/-- Where at most one check succeeds, it does not matter where it stands. -/
theorem findSome_iff {order : List (Bytes → Option Atom)} (exclusive : order.Pairwise Exclusive)
    {bytes : Bytes} :
    (order.findSome? fun check => check bytes) = some atom ↔
      ∃ check ∈ order, check bytes = some atom := by
  refine ⟨List.exists_of_findSome?_eq_some, ?_⟩
  rintro ⟨check, check_mem, found⟩
  induction exclusive with
  | nil => cases check_mem
  | @cons first rest apart _ induction =>
      rw [List.findSome?_cons]
      rcases List.mem_cons.mp check_mem with rfl | check_mem
      · rw [found]
      · have fails : first bytes = none := (apart check check_mem bytes).resolve_right
          (Option.ne_none_iff_exists'.mpr ⟨atom, found⟩)
        rw [fails]
        exact induction check_mem

theorem classifyBy_perm {order : List (Bytes → Option Atom)} (perm : order.Perm checks)
    (bytes : Bytes) : classifyBy order bytes = classifyBy checks bytes := by
  have exclusive : order.Pairwise Exclusive :=
    (perm.pairwise_iff fun exclusive bytes => (exclusive bytes).symm).mpr exclusive_checks
  refine congrArg (fun found => Option.getD found unknown) (Option.ext fun atom => ?_)
  rw [findSome_iff exclusive, findSome_iff exclusive_checks]
  simp only [perm.mem_iff]

theorem findSome_check_cons (bytes : Bytes) (others : List (Bytes → Option Atom)) :
    ((check known atom :: others).findSome? fun check => check bytes) =
      if known bytes.toList = true then some atom
      else others.findSome? fun check => check bytes := by
  rw [List.findSome?_cons, check]
  cases known bytes.toList <;> rfl

/-- Classification makes the checks one after the other. -/
theorem classify_eq_classifyBy (bytes : Bytes) : classify bytes = classifyBy checks bytes := by
  rw [classify, classifyBy, checks, List.findSome?_cons]
  dsimp only
  cases Keyword.ofBytes? bytes with
  | some meaning => rfl
  | none =>
      simp only [Option.map_none, findSome_check_cons, List.findSome?_nil, ofNumber?,
        Number.floatForm?, apply_ite (fun found : Option Atom => found.getD unknown),
        apply_ite (Option.map (number .float)), Option.map_some, Option.getD_some, Option.getD_none]

theorem classify_eq_iff {bytes : Bytes} (known : atom ≠ unknown) :
    classify bytes = atom ↔ ∃ check ∈ checks, check bytes = some atom := by
  rw [classify_eq_classifyBy, classifyBy, ← findSome_iff exclusive_checks]
  cases checks.findSome? fun check => check bytes with
  | none => exact iff_of_false known.symm nofun
  | some found => rw [Option.getD_some, Option.some.injEq]

/-- What classification decides of a run of bytes. -/
structure Classified (bytes : Bytes) : Prop where
  /-- Words with a meaning are keywords. -/
  keyword : (∃ meaning, classify bytes = .keyword meaning) ↔ bytes.toList ∈ Grammar.keyword
  /-- Names. -/
  var : classify bytes = .var ↔ bytes.toList ∈ Grammar.var
  /-- Offsets. -/
  offset : classify bytes = .offset ↔ bytes.toList ∈ Grammar.offset
  /-- Alignments. -/
  align : classify bytes = .align ↔ bytes.toList ∈ Grammar.align
  /-- Numbers without a sign are naturals. -/
  nat : classify bytes = .number .nat .int ↔ bytes.toList ∈ Grammar.nat
  /-- Numbers with a sign are integers. -/
  int : classify bytes = .number .int .int ↔ bytes.toList ∈ Grammar.int
  /-- Floats. -/
  float : classify bytes = .number .float .float ↔ bytes.toList ∈ Grammar.float
  /-- Hexadecimal floats. -/
  hexFloat : classify bytes = .number .float .hexFloat ↔ bytes.toList ∈ Grammar.hexFloat
  /-- Infinities. -/
  infinity : classify bytes = .number .float .infinity ↔ bytes.toList ∈ Grammar.infinity
  /-- NaNs. -/
  nan : classify bytes = .number .float .nan ↔ bytes.toList ∈ Grammar.nan
  /-- Everything else is unknown. -/
  unknown : classify bytes = .unknown ↔ ∀ language ∈ atoms, bytes.toList ∉ language

theorem ne_unknown_of_mem_checks (bytes : Bytes) :
    ∀ check ∈ checks, check bytes ≠ some unknown := by
  simp [checks, check]

theorem classified (bytes : Bytes) : Classified bytes where
  keyword := by
    rw [← isSome_keyword_iff, Option.isSome_iff_exists]
    refine exists_congr fun meaning => (classify_eq_iff (by simp)).trans ?_
    simp [checks, check]
  var := by
    refine (classify_eq_iff (by decide)).trans (Iff.trans ?_ isVar_iff)
    simp [checks, check]
  offset := by
    refine (classify_eq_iff (by decide)).trans (Iff.trans ?_ isWordAndNat_iff)
    simp [checks, check, offsetWord]
  align := by
    refine (classify_eq_iff (by decide)).trans (Iff.trans ?_ isWordAndNat_iff)
    simp [checks, check, alignWord]
  nat := by
    refine (classify_eq_iff (by decide)).trans (Iff.trans ?_ Number.isNat_iff)
    simp [checks, check]
  int := by
    refine (classify_eq_iff (by decide)).trans (Iff.trans ?_ isInt_iff)
    simp [checks, check]
  float := by
    refine (classify_eq_iff (by decide)).trans (Iff.trans ?_ Number.isFloat_unsigned_iff)
    simp [checks, check]
  hexFloat := by
    refine (classify_eq_iff (by decide)).trans (Iff.trans ?_ Number.isHexFloat_unsigned_iff)
    simp [checks, check]
  infinity := by
    refine (classify_eq_iff (by decide)).trans (Iff.trans ?_ Number.isInfinity_unsigned_iff)
    simp [checks, check]
  nan := by
    refine (classify_eq_iff (by decide)).trans (Iff.trans ?_ Number.isNan_unsigned_iff)
    simp [checks, check]
  unknown := by
    rw [← accepted_checks, List.forall_mem_map, classify_eq_classifyBy, classifyBy]
    constructor
    · intro unknown check check_mem succeeds
      obtain ⟨atom, found⟩ := Option.isSome_iff_exists.mp succeeds
      have first := (findSome_iff exclusive_checks).mpr ⟨check, check_mem, found⟩
      rw [first, Option.getD_some] at unknown
      exact ne_unknown_of_mem_checks bytes check check_mem (found.trans (congrArg some unknown))
    · intro fails
      have none_eq : (checks.findSome? fun check => check bytes) = none :=
        List.findSome?_eq_none_iff.mpr fun check check_mem =>
          Option.not_isSome_iff_eq_none.mp (fails check check_mem)
      rw [none_eq, Option.getD_none]

/-- Classification decides the grammar of atoms, whose languages have no word in common, and it
would do so with its checks in any other order. -/
theorem classify_decides_grammar :
    (∀ bytes, Classified bytes) ∧ atoms.Pairwise Disjoint ∧
      ∀ order : List (Bytes → Option Atom), order.Perm checks →
        ∀ bytes, classifyBy order bytes = classify bytes :=
  ⟨classified, disjoint_atoms, fun _ perm bytes =>
    (classifyBy_perm perm bytes).trans (classify_eq_classifyBy bytes).symm⟩

/-- The number `0x1p4`, with the checks in reverse. -/
theorem classifyBy_reverse_hexFloat :
    checks.reverse.Perm checks ∧
      classifyBy checks.reverse (Bytes.ofString "0x1p4") = .number .float .hexFloat :=
  ⟨checks.reverse_perm,
    (classify_decides_grammar.2.2 checks.reverse checks.reverse_perm _).trans (by decide)⟩

end Atom

end WasmText
