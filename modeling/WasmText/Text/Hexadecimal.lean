/-!
# Hexadecimal numbers
-/

namespace WasmText

/-- A number in small hexadecimal digits without leading zeros. -/
def hexadecimal (number : Nat) : String :=
  String.ofList (Nat.toDigits 16 number)

end WasmText
