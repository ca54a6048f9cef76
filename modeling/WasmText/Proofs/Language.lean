import Mathlib.Computability.Language
import Mathlib.Order.CompletePartialOrder
import WasmText.Number

/-!
# Languages of bytes

Languages are put together from classes of bytes and from words by sums, products and stars. What
is peeled off the front of a word, and which bytes the words of a language have or begin with, is
shown along that structure.
-/

open Computability

namespace WasmText.Grammar

/-- One byte of a class. -/
def anyOf (accepts : UInt8 → Bool) : Language UInt8 :=
  {bytes | ∃ byte, accepts byte = true ∧ bytes = [byte]}

/-- A run of bytes of a class, at least one. -/
def run (accepts : UInt8 → Bool) : Language UInt8 :=
  anyOf accepts * (anyOf accepts)∗

/-- A word, and nothing else. -/
def word (text : String) : Language UInt8 :=
  {Number.spelled text}

/-- A part that may be left out. -/
def maybe (part : Language UInt8) : Language UInt8 :=
  1 + part

/-- Every byte of the language's words is of the class. -/
def MadeOf (accepts : UInt8 → Bool) (language : Language UInt8) : Prop :=
  ∀ bytes ∈ language, ∀ byte ∈ bytes, accepts byte = true

/-- Every word of the language has one of the bytes. -/
def Marked (marks : List UInt8) (language : Language UInt8) : Prop :=
  ∀ bytes ∈ language, ∃ mark ∈ marks, mark ∈ bytes

/-- Every word of the language begins with a byte of the class. -/
def Begins (accepts : UInt8 → Bool) (language : Language UInt8) : Prop :=
  ∀ bytes ∈ language, ∃ byte rest, accepts byte = true ∧ bytes = byte :: rest

/-- No word of the language begins with a byte of the class. -/
def Stops (accepts : UInt8 → Bool) (language : Language UInt8) : Prop :=
  ∀ byte rest, accepts byte = true → byte :: rest ∉ language

variable {accepts narrow : UInt8 → Bool} {part tail first second : Language UInt8}
  {byte : UInt8} {bytes rest : List UInt8} {marks : List UInt8} {text : String}

/-! ### Membership -/

theorem mem_anyOf_mul :
    bytes ∈ anyOf accepts * tail ↔ ∃ byte rest, accepts byte = true ∧ rest ∈ tail ∧
      bytes = byte :: rest := by
  rw [Language.mem_mul]
  constructor
  · rintro ⟨_, ⟨byte, accepted, rfl⟩, rest, rest_mem, rfl⟩
    exact ⟨byte, rest, accepted, rest_mem, rfl⟩
  · rintro ⟨byte, rest, accepted, rest_mem, rfl⟩
    exact ⟨[byte], ⟨byte, accepted, rfl⟩, rest, rest_mem, rfl⟩

@[simp] theorem nil_mem_anyOf_mul : [] ∉ anyOf accepts * tail := by
  rw [mem_anyOf_mul]
  rintro ⟨_, _, -, -, empty⟩
  cases empty

@[simp] theorem cons_mem_anyOf_mul :
    byte :: rest ∈ anyOf accepts * tail ↔ accepts byte = true ∧ rest ∈ tail := by
  rw [mem_anyOf_mul]
  constructor
  · rintro ⟨_, _, accepted, rest_mem, same⟩
    cases same
    exact ⟨accepted, rest_mem⟩
  · rintro ⟨accepted, rest_mem⟩
    exact ⟨byte, rest, accepted, rest_mem, rfl⟩

theorem mem_word_mul :
    bytes ∈ word text * tail ↔ ∃ rest ∈ tail, Number.spelled text ++ rest = bytes := by
  rw [Language.mem_mul]
  constructor
  · rintro ⟨_, rfl, rest, rest_mem, same⟩
    exact ⟨rest, rest_mem, same⟩
  · rintro ⟨rest, rest_mem, same⟩
    exact ⟨_, rfl, rest, rest_mem, same⟩

/-- A word at the front may be taken off. -/
theorem mem_word_mul_of_isPrefixOf {text : String} {rest : List UInt8}
    (stripped : (Number.spelled text).isPrefixOf? bytes = some rest) :
    bytes ∈ word text * tail ↔ rest ∈ tail := by
  rw [mem_word_mul, ← List.isPrefixOf?_eq_some_iff_append_eq.mp stripped]
  simp only [List.append_cancel_left_eq, exists_eq_right]

theorem not_mem_word_mul_of_isPrefixOf {text : String}
    (stripped : (Number.spelled text).isPrefixOf? bytes = none) : bytes ∉ word text * tail := by
  rw [mem_word_mul]
  rintro ⟨rest, -, same⟩
  rw [List.isPrefixOf?_eq_some_iff_append_eq.mpr same] at stripped
  cases stripped

/-- A word of one character is the class of its byte. -/
theorem word_eq_anyOf (spelled : Number.spelled text = [byte]) :
    word text = anyOf (· == byte) := by
  ext bytes
  change bytes = Number.spelled text ↔ ∃ other, (other == byte) = true ∧ bytes = [other]
  simp only [spelled, beq_iff_eq, exists_eq_left]

theorem maybe_mul (part tail : Language UInt8) : maybe part * tail = tail + part * tail := by
  rw [maybe, add_mul, one_mul]

theorem mul_maybe (part tail : Language UInt8) : tail * maybe part = tail + tail * part := by
  rw [maybe, mul_add, mul_one]

theorem mem_maybe_mul :
    bytes ∈ maybe part * tail ↔ bytes ∈ tail ∨ bytes ∈ part * tail := by
  rw [maybe_mul, Language.mem_add]

theorem mem_star_anyOf :
    bytes ∈ (anyOf accepts)∗ ↔ ∀ byte ∈ bytes, accepts byte = true := by
  induction bytes with
  | nil => simp [Language.nil_mem_kstar]
  | cons byte rest induction =>
      rw [← Language.one_add_self_mul_kstar_eq_kstar, Language.mem_add, cons_mem_anyOf_mul,
        induction, List.forall_mem_cons]
      exact or_iff_right (List.cons_ne_nil byte rest)

theorem mem_run : bytes ∈ run accepts ↔ bytes ≠ [] ∧ ∀ byte ∈ bytes, accepts byte = true := by
  cases bytes with
  | nil => simp [run]
  | cons byte rest =>
      rw [run, cons_mem_anyOf_mul, mem_star_anyOf, List.forall_mem_cons,
        and_iff_right (List.cons_ne_nil byte rest)]

/-- The longest run of a class may be taken off the front if what may follow the run does not need
any byte of the class at its own front. -/
theorem mem_star_mul
    (sheds : ∀ byte rest, accepts byte = true → byte :: rest ∈ tail → rest ∈ tail) :
    bytes ∈ (anyOf accepts)∗ * tail ↔ bytes.dropWhile accepts ∈ tail := by
  rw [Language.mem_mul]
  constructor
  · rintro ⟨front, front_mem, rest, rest_mem, rfl⟩
    rw [List.dropWhile_append_of_pos (mem_star_anyOf.mp front_mem)]
    clear front_mem
    induction rest with
    | nil => exact rest_mem
    | cons byte rest induction =>
        rw [List.dropWhile_cons]
        split
        · rename_i accepted
          exact induction (sheds byte rest accepted rest_mem)
        · exact rest_mem
  · intro rest_mem
    exact ⟨bytes.takeWhile accepts, mem_star_anyOf.mpr (List.all_eq_true.mp List.all_takeWhile), _,
      rest_mem, List.takeWhile_append_dropWhile⟩

theorem mem_run_mul
    (sheds : ∀ byte rest, accepts byte = true → byte :: rest ∈ tail → rest ∈ tail) :
    bytes ∈ run accepts * tail ↔
      bytes.takeWhile accepts ≠ [] ∧ bytes.dropWhile accepts ∈ tail := by
  rw [run, mul_assoc]
  cases bytes with
  | nil => simp
  | cons byte rest =>
      rw [cons_mem_anyOf_mul, mem_star_mul sheds]
      cases accepted : accepts byte <;> simp [accepted]

/-! ### The bytes of words -/

namespace MadeOf

theorem one : MadeOf accepts 1 := by
  intro bytes mem
  rw [Language.mem_one] at mem
  subst bytes
  exact nofun

theorem add (left : MadeOf accepts first) (right : MadeOf accepts second) :
    MadeOf accepts (first + second) := by
  rintro bytes (mem | mem)
  · exact left bytes mem
  · exact right bytes mem

theorem mul (left : MadeOf accepts first) (right : MadeOf accepts second) :
    MadeOf accepts (first * second) := by
  rintro _ ⟨front, front_mem, back, back_mem, rfl⟩ byte byte_mem
  rcases List.mem_append.mp byte_mem with byte_mem | byte_mem
  · exact left front front_mem byte byte_mem
  · exact right back back_mem byte byte_mem

theorem maybe (part : MadeOf accepts first) : MadeOf accepts (maybe first) :=
  one.add part

theorem word (spelled : (Number.spelled text).all accepts = true) :
    MadeOf accepts (word text) := by
  rintro _ rfl
  exact List.all_eq_true.mp spelled

theorem star (contained : ∀ byte, narrow byte = true → accepts byte = true) :
    MadeOf accepts (anyOf narrow)∗ :=
  fun _ mem byte byte_mem => contained byte (mem_star_anyOf.mp mem byte byte_mem)

theorem anyOf (contained : ∀ byte, narrow byte = true → accepts byte = true) :
    MadeOf accepts (anyOf narrow) := by
  rintro _ ⟨byte, accepted, rfl⟩ other other_mem
  rw [List.mem_singleton.mp other_mem]
  exact contained byte accepted

theorem run (contained : ∀ byte, narrow byte = true → accepts byte = true) :
    MadeOf accepts (run narrow) :=
  (anyOf contained).mul (star contained)

end MadeOf

namespace Marked

theorem add (left : Marked marks first) (right : Marked marks second) :
    Marked marks (first + second) := by
  rintro bytes (mem | mem)
  · exact left bytes mem
  · exact right bytes mem

theorem mul_left (left : Marked marks first) : Marked marks (first * second) := by
  rintro _ ⟨front, front_mem, back, -, rfl⟩
  obtain ⟨mark, mark_mem, present⟩ := left front front_mem
  exact ⟨mark, mark_mem, List.mem_append_left back present⟩

theorem mul_right (right : Marked marks second) : Marked marks (first * second) := by
  rintro _ ⟨front, -, back, back_mem, rfl⟩
  obtain ⟨mark, mark_mem, present⟩ := right back back_mem
  exact ⟨mark, mark_mem, List.mem_append_right front present⟩

theorem word (spelled : ∃ mark ∈ marks, mark ∈ Number.spelled text) :
    Marked marks (word text) := by
  rintro _ rfl
  exact spelled

end Marked

theorem disjoint_add_left {third : Language UInt8} :
    Disjoint (first + second) third ↔ Disjoint first third ∧ Disjoint second third :=
  disjoint_sup_left

theorem disjoint_add_right {third : Language UInt8} :
    Disjoint first (second + third) ↔ Disjoint first second ∧ Disjoint first third :=
  disjoint_sup_right

/-- Words with a byte that those of another language never have. -/
theorem Marked.disjoint (marked : Marked marks first) (made : MadeOf accepts second)
    (apart : marks.any accepts = false) : Disjoint first second := by
  refine Set.disjoint_left.mpr fun bytes mem other => ?_
  obtain ⟨mark, mark_mem, present⟩ := marked bytes mem
  exact List.any_eq_false.mp apart mark mark_mem (made bytes other mark present)

namespace Begins

theorem mul (begins : Begins accepts first) : Begins accepts (first * second) := by
  rintro _ ⟨front, front_mem, back, -, rfl⟩
  obtain ⟨byte, rest, accepted, rfl⟩ := begins front front_mem
  exact ⟨byte, rest ++ back, accepted, rfl⟩

theorem add (left : Begins accepts first) (right : Begins accepts second) :
    Begins accepts (first + second) := by
  rintro bytes (mem | mem)
  · exact left bytes mem
  · exact right bytes mem

theorem run : Begins accepts (run accepts) := by
  intro bytes mem
  obtain ⟨byte, rest, accepted, -, same⟩ := mem_anyOf_mul.mp mem
  exact ⟨byte, rest, accepted, same⟩

theorem word (spelled : (Number.spelled text).head?.any accepts = true) :
    Begins accepts (word text) := by
  rintro _ rfl
  cases same : Number.spelled text with
  | nil =>
      rw [same] at spelled
      cases spelled
  | cons byte rest =>
      rw [same] at spelled
      exact ⟨byte, rest, spelled, rfl⟩

theorem disjoint (begins : Begins accepts first) (stops : Stops accepts second) :
    Disjoint first second := by
  refine Set.disjoint_left.mpr fun bytes mem other => ?_
  obtain ⟨byte, rest, accepted, rfl⟩ := begins bytes mem
  exact stops byte rest accepted other

theorem stops (begins : Begins accepts first)
    (apart : ∀ byte, narrow byte = true → accepts byte = false) : Stops narrow first := by
  intro byte rest accepted mem
  obtain ⟨_, _, begun, same⟩ := begins _ mem
  cases same
  rw [apart byte accepted] at begun
  cases begun

end Begins

end WasmText.Grammar
