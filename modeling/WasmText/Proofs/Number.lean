import WasmText.Proofs.Language

/-!
# The grammar of numbers

The written forms of numbers as languages. Each recogniser peels a sign, a word or the longest run
of a class off the front and never goes back; that it accepts its language is shown from what may
follow the part that is peeled off.
-/

open Computability

namespace WasmText

namespace Grammar

/-- A sign. -/
def sign : Language UInt8 :=
  anyOf Number.isSign

/-- A digit. -/
def digit : Language UInt8 :=
  anyOf Ascii.isDigit

/-- Digits, at least one. -/
def digits : Language UInt8 :=
  run Ascii.isDigit

/-- A hexadecimal digit. -/
def hexDigit : Language UInt8 :=
  anyOf Ascii.isHexDigit

/-- Hexadecimal digits, at least one. -/
def hexDigits : Language UInt8 :=
  run Ascii.isHexDigit

/-- Naturals. -/
def nat : Language UInt8 :=
  digits + word "0x" * hexDigits

/-- Integers. -/
def int : Language UInt8 :=
  sign * nat

/-- Floats without their sign. -/
def unsignedFloat : Language UInt8 :=
  digits * word "." * digit∗ +
    digits * maybe (word "." * digit∗) * anyOf Number.isExponentMark * maybe sign * digits

/-- Floats. -/
def float : Language UInt8 :=
  maybe sign * unsignedFloat

/-- Hexadecimal floats without their sign. -/
def unsignedHexFloat : Language UInt8 :=
  word "0x" * hexDigits * maybe (word ".") * hexDigit∗ * word "p" * maybe sign * digits

/-- Hexadecimal floats. -/
def hexFloat : Language UInt8 :=
  maybe sign * unsignedHexFloat

/-- Infinities without their sign. -/
def unsignedInfinity : Language UInt8 :=
  word "inf" + word "infinity"

/-- Infinities. -/
def infinity : Language UInt8 :=
  maybe sign * unsignedInfinity

/-- NaNs without their sign. -/
def unsignedNan : Language UInt8 :=
  word "nan" + word "nan:0x" * hexDigits

/-- NaNs. -/
def nan : Language UInt8 :=
  maybe sign * unsignedNan

/-- The classes that signs are apart from. -/
theorem Begins.stops_isSign {accepts : UInt8 → Bool} {body : Language UInt8}
    (begins : Begins accepts body) (plus : accepts Ascii.plus = false)
    (minus : accepts Ascii.minus = false) :
    Stops Number.isSign body := by
  refine begins.stops fun byte signed => ?_
  rcases Bool.or_eq_true_iff.mp signed with same | same
  · rw [eq_of_beq same, plus]
  · rw [eq_of_beq same, minus]

theorem begins_digits : Begins Ascii.isDigit digits :=
  Begins.run

theorem begins_nat : Begins Ascii.isDigit nat :=
  begins_digits.add (Begins.word (by decide)).mul

theorem begins_unsignedFloat : Begins Ascii.isDigit unsignedFloat :=
  begins_digits.mul.mul.add begins_digits.mul.mul.mul.mul

theorem begins_unsignedHexFloat : Begins Ascii.isDigit unsignedHexFloat :=
  (Begins.word (by decide)).mul.mul.mul.mul.mul.mul

theorem begins_unsignedInfinity : Begins Ascii.isLetter unsignedInfinity :=
  (Begins.word (by decide)).add (Begins.word (by decide))

theorem begins_unsignedNan : Begins Ascii.isLetter unsignedNan :=
  (Begins.word (by decide)).add (Begins.word (by decide)).mul

end Grammar

namespace Number

open Grammar

variable {tail : Language UInt8} {bytes : List UInt8}

theorem isDigits_iff : isDigits bytes = true ↔ bytes ∈ digits := by
  simp [isDigits, digits, mem_run]

theorem isHexDigits_iff : isHexDigits bytes = true ↔ bytes ∈ hexDigits := by
  simp [isHexDigits, hexDigits, mem_run]

theorem isNat_iff : isNat bytes = true ↔ bytes ∈ nat := by
  unfold isNat
  rw [nat, Language.mem_add]
  split
  · rename_i hex stripped
    rw [isHexDigits_iff, mem_word_mul_of_isPrefixOf stripped]
    refine (or_iff_right fun decimal => ?_).symm
    -- The second byte of the word is not a digit.
    rw [← List.isPrefixOf?_eq_some_iff_append_eq.mp stripped, digits, mem_run] at decimal
    exact absurd (decimal.2 (Ascii.ofChar 'x') (by simp [spelled])) (by decide)
  · rename_i stripped
    rw [isDigits_iff, or_iff_left (not_mem_word_mul_of_isPrefixOf stripped)]

/-- An optional sign may be taken off if what may follow it does not begin with one. -/
theorem mem_maybe_sign_mul (stops : Stops isSign tail) :
    bytes ∈ maybe sign * tail ↔ unsigned bytes ∈ tail := by
  rw [mem_maybe_mul]
  cases bytes with
  | nil => simp [sign, unsigned]
  | cons byte rest =>
      rw [sign, cons_mem_anyOf_mul, unsigned]
      split
      · rename_i signed
        simp [signed, stops byte rest signed]
      · rename_i unsigned
        simp [unsigned]

theorem isExponent_iff : isExponent bytes = true ↔ bytes ∈ maybe sign * digits := by
  rw [isExponent, isDigits_iff,
    mem_maybe_sign_mul (begins_digits.stops_isSign (by decide) (by decide))]

/-- The exponent of a float, with its mark. -/
abbrev exponent : Language UInt8 :=
  anyOf isExponentMark * (maybe sign * digits)

theorem isFloatEnd_iff {hasFraction : Bool} :
    isFloatEnd hasFraction bytes = true ↔
      (hasFraction = true ∧ bytes = []) ∨ bytes ∈ exponent := by
  cases bytes with
  | nil => simp [isFloatEnd]
  | cons byte rest => simp [isFloatEnd, isExponent_iff]

theorem stops_isDigit_exponent : Stops Ascii.isDigit exponent := by
  intro byte rest decimal mem
  have mark := (cons_mem_anyOf_mul.mp mem).1
  rcases Bool.or_eq_true_iff.mp mark with same | same
  all_goals
    rw [eq_of_beq same] at decimal
    exact absurd decimal (by decide)

/-- A float has a fraction, an exponent or both after its first digits. -/
theorem unsignedFloat_eq :
    unsignedFloat = digits * (anyOf (· == Ascii.dot) * (digit∗ * maybe exponent) + exponent) := by
  have point : word "." = anyOf (· == Ascii.dot) := word_eq_anyOf rfl
  calc
    unsignedFloat =
        digits * (anyOf (· == Ascii.dot) * digit∗) +
          digits * (maybe (anyOf (· == Ascii.dot) * digit∗) * exponent) := by
      rw [unsignedFloat, point]
      simp only [mul_assoc]
    _ = digits * (anyOf (· == Ascii.dot) * digit∗ +
          (exponent + anyOf (· == Ascii.dot) * digit∗ * exponent)) := by
      rw [← mul_add, maybe_mul]
    _ = digits * (anyOf (· == Ascii.dot) * (digit∗ * maybe exponent) + exponent) := by
      rw [mul_maybe, mul_add (anyOf _), mul_assoc, add_assoc, add_comm exponent]

theorem isFloat_iff : isFloat bytes = true ↔ bytes ∈ unsignedFloat := by
  have stops : Stops Ascii.isDigit
      (anyOf (· == Ascii.dot) * (digit∗ * maybe exponent) + exponent) := by
    rintro byte rest decimal (fraction | exponent)
    · have dot := (cons_mem_anyOf_mul.mp fraction).1
      rw [eq_of_beq dot] at decimal
      exact absurd decimal (by decide)
    · exact stops_isDigit_exponent byte rest decimal exponent
  have stops_end : Stops Ascii.isDigit (maybe exponent) := by
    rintro byte rest decimal (empty | exponent)
    · cases empty
    · exact stops_isDigit_exponent byte rest decimal exponent
  rw [unsignedFloat_eq, digits, mem_run_mul fun byte rest decimal mem =>
    absurd mem (stops byte rest decimal), Language.mem_add, isFloat, Bool.and_eq_true, bne_iff_ne]
  refine and_congr_right fun _ => ?_
  cases bytes.dropWhile Ascii.isDigit with
  | nil => simp [isFloatEnd_iff]
  | cons byte fraction =>
      rw [cons_mem_anyOf_mul, digit, mem_star_mul fun byte rest decimal mem =>
        absurd mem (stops_end byte rest decimal)]
      dsimp only
      split
      · rename_i point
        have mark : byte :: fraction ∉ exponent := by
          rw [cons_mem_anyOf_mul, point]
          exact fun mem => absurd mem.1 (by decide)
        rw [isFloatEnd_iff, or_iff_left mark, maybe, Language.mem_add, Language.mem_one]
        simp [point]
      · rename_i other
        rw [isFloatEnd_iff]
        simp [other]

/-- The exponent of a hexadecimal float, with its mark. -/
abbrev hexExponent : Language UInt8 :=
  anyOf (· == Ascii.ofChar 'p') * (maybe sign * digits)

theorem stops_isHexDigit_hexExponent : Stops Ascii.isHexDigit hexExponent := by
  intro byte rest hexadecimal mem
  have mark := (cons_mem_anyOf_mul.mp mem).1
  rw [eq_of_beq mark] at hexadecimal
  exact absurd hexadecimal (by decide)

theorem mem_star_mul_hexExponent :
    bytes ∈ hexDigit∗ * hexExponent ↔ bytes.dropWhile Ascii.isHexDigit ∈ hexExponent :=
  mem_star_mul fun byte rest hexadecimal mem =>
    absurd mem (stops_isHexDigit_hexExponent byte rest hexadecimal)

theorem isHexFloatEnd_dot_iff :
    isHexFloatEnd (Ascii.dot :: bytes) = true ↔ bytes ∈ hexDigit∗ * hexExponent := by
  rw [mem_star_mul_hexExponent, isHexFloatEnd, if_pos rfl]
  cases bytes.dropWhile Ascii.isHexDigit with
  | nil => simp
  | cons byte exponent => simp [isExponent_iff]

/-- A point may be missing. -/
theorem isHexFloatEnd_of_ne {byte : UInt8} (other : byte ≠ Ascii.dot) :
    isHexFloatEnd (byte :: bytes) = isHexFloatEnd (Ascii.dot :: byte :: bytes) := by
  simp only [isHexFloatEnd, if_neg other, if_pos]

theorem isHexFloatEnd_iff :
    isHexFloatEnd bytes = true ↔
      bytes ∈ maybe (anyOf (· == Ascii.dot)) * (hexDigit∗ * hexExponent) := by
  rw [mem_maybe_mul]
  cases bytes with
  | nil => simp [mem_star_mul_hexExponent, isHexFloatEnd]
  | cons byte fraction =>
      rw [cons_mem_anyOf_mul]
      by_cases point : byte = Ascii.dot
      · -- A point is neither a digit nor the mark of an exponent.
        have apart : byte :: fraction ∉ hexDigit∗ * hexExponent := by
          rw [point, mem_star_mul_hexExponent, List.dropWhile_cons_of_neg (by decide),
            cons_mem_anyOf_mul]
          exact fun mem => absurd mem.1 (by decide)
        rw [or_iff_right apart, point, isHexFloatEnd_dot_iff]
        simp
      · rw [isHexFloatEnd_of_ne point, isHexFloatEnd_dot_iff]
        simp [point]

/-- Digits that are left over for the fraction may go without saying: without a point, they belong
to the digits before it. -/
theorem isHexFloat_iff : isHexFloat bytes = true ↔ bytes ∈ unsignedHexFloat := by
  have sheds : ∀ byte rest, Ascii.isHexDigit byte = true →
      byte :: rest ∈ maybe (anyOf (· == Ascii.dot)) * (hexDigit∗ * hexExponent) →
        rest ∈ maybe (anyOf (· == Ascii.dot)) * (hexDigit∗ * hexExponent) := by
    intro byte rest hexadecimal mem
    rw [mem_maybe_mul] at mem ⊢
    rcases mem with fraction | point
    · rw [mem_star_mul_hexExponent, List.dropWhile_cons_of_pos hexadecimal,
        ← mem_star_mul_hexExponent] at fraction
      exact .inl fraction
    · have same := (cons_mem_anyOf_mul.mp point).1
      rw [eq_of_beq same] at hexadecimal
      exact absurd hexadecimal (by decide)
  have shape : unsignedHexFloat = word "0x" *
      (hexDigits * (maybe (anyOf (· == Ascii.dot)) * (hexDigit∗ * hexExponent))) := by
    have point : word "." = anyOf (· == Ascii.dot) := word_eq_anyOf rfl
    have mark : word "p" = anyOf (· == Ascii.ofChar 'p') := word_eq_anyOf rfl
    rw [unsignedHexFloat, point, mark]
    simp only [mul_assoc]
  rw [shape, isHexFloat]
  split
  · rename_i stripped
    exact iff_of_false Bool.false_ne_true (not_mem_word_mul_of_isPrefixOf stripped)
  · rename_i hex stripped
    rw [mem_word_mul_of_isPrefixOf stripped, hexDigits, mem_run_mul sheds, ← isHexFloatEnd_iff,
      Bool.and_eq_true, bne_iff_ne]

theorem isInfinity_iff : isInfinity bytes = true ↔ bytes ∈ unsignedInfinity := by
  rw [isInfinity, Bool.or_eq_true, beq_iff_eq, beq_iff_eq]
  rfl

theorem isNan_iff : isNan bytes = true ↔ bytes ∈ unsignedNan := by
  rw [isNan, Bool.or_eq_true, beq_iff_eq, unsignedNan, Language.mem_add]
  refine or_congr Iff.rfl ?_
  split
  · rename_i stripped
    exact iff_of_false Bool.false_ne_true (not_mem_word_mul_of_isPrefixOf stripped)
  · rename_i hex stripped
    rw [mem_word_mul_of_isPrefixOf stripped, isHexDigits_iff]

theorem isFloat_unsigned_iff : isFloat (unsigned bytes) = true ↔ bytes ∈ float := by
  rw [isFloat_iff, float,
    mem_maybe_sign_mul (begins_unsignedFloat.stops_isSign (by decide) (by decide))]

theorem isHexFloat_unsigned_iff : isHexFloat (unsigned bytes) = true ↔ bytes ∈ hexFloat := by
  rw [isHexFloat_iff, hexFloat,
    mem_maybe_sign_mul (begins_unsignedHexFloat.stops_isSign (by decide) (by decide))]

theorem isInfinity_unsigned_iff : isInfinity (unsigned bytes) = true ↔ bytes ∈ infinity := by
  rw [isInfinity_iff, infinity,
    mem_maybe_sign_mul (begins_unsignedInfinity.stops_isSign (by decide) (by decide))]

theorem isNan_unsigned_iff : isNan (unsigned bytes) = true ↔ bytes ∈ nan := by
  rw [isNan_iff, nan,
    mem_maybe_sign_mul (begins_unsignedNan.stops_isSign (by decide) (by decide))]

end Number

end WasmText
