import Mathlib.Data.List.Basic
import WasmText.CommandLine.Run

/-!
# Texts of lines

A text is made of lines if each of them is ended by a newline and none of them has one inside. It has
as many newlines as lines.
-/

namespace WasmText

/-- A text that stays on its line. -/
def OneLine (text : String) : Prop :=
  '\n' ∉ text.toList

instance (text : String) : Decidable (OneLine text) :=
  inferInstanceAs (Decidable ('\n' ∉ text.toList))

namespace OneLine

variable {first second : String}

@[simp] theorem append_iff : OneLine (first ++ second) ↔ OneLine first ∧ OneLine second := by
  simp only [OneLine, String.toList_append, List.mem_append, not_or]

theorem push {text : String} {character : Char} (line : OneLine text) (other : character ≠ '\n') :
    OneLine (text.push character) := by
  rw [OneLine, String.toList_push, List.mem_append, List.mem_singleton, not_or]
  exact ⟨line, Ne.symm other⟩

theorem pushn {text : String} {character : Char} (line : OneLine text) (other : character ≠ '\n')
    (count : Nat) : OneLine (text.pushn character count) := by
  rw [String.pushn_eq_repeat_push]
  induction count with
  | zero => exact line
  | succ count induction => exact induction.push other

/-- Numbers are written in digits. -/
theorem ofNat (number : Nat) : OneLine (toString number) := by
  intro newline
  change '\n' ∈ number.repr.toList at newline
  rw [Nat.toList_repr] at newline
  have digit := Nat.isDigit_of_mem_toDigits (by decide) (by decide) newline
  exact absurd digit (by decide)

end OneLine

/-- A text consists of the lines, each ended by a newline. -/
structure Lined (text : String) (lines : List String) : Prop where
  /-- The text is that of the lines. -/
  text_eq : text = Command.ofLines lines
  /-- The lines have no newlines inside. -/
  oneLine : ∀ line ∈ lines, OneLine line

namespace Lined

variable {text first second : String} {lines others : List String}

theorem ofLines_append (lines others : List String) :
    Command.ofLines (lines ++ others) = Command.ofLines lines ++ Command.ofLines others := by
  rw [Command.ofLines, List.map_append, String.join_append]
  rfl

theorem nil : Lined "" [] :=
  ⟨rfl, nofun⟩

theorem singleton {line : String} (oneLine : OneLine line) : Lined (line ++ "\n") [line] := by
  refine ⟨?_, List.forall_mem_singleton.mpr oneLine⟩
  rw [Command.ofLines, List.map_singleton, String.join_cons, String.join_nil, String.append_empty]

theorem append (left : Lined first lines) (right : Lined second others) :
    Lined (first ++ second) (lines ++ others) := by
  refine ⟨?_, List.forall_mem_append.mpr ⟨left.oneLine, right.oneLine⟩⟩
  rw [left.text_eq, right.text_eq, ofLines_append]

/-- There are as many newlines as there are lines. -/
theorem count_newline (lined : Lined text lines) : text.toList.count '\n' = lines.length := by
  obtain ⟨rfl, oneLine⟩ := lined
  induction lines with
  | nil => rfl
  | cons line lines induction =>
      obtain ⟨head, tail⟩ := List.forall_mem_cons.mp oneLine
      have first : (line ++ "\n").toList.count '\n' = 1 := by
        rw [String.toList_append, List.count_append, List.count_eq_zero.mpr head]
        rfl
      rw [Command.ofLines, List.map_cons, String.join_cons, String.toList_append,
        List.count_append, first, List.length_cons, Nat.add_comm]
      exact congrArg (· + 1) (induction tail)

end Lined

end WasmText
