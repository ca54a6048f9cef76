/-!
# The address space
-/

namespace WasmText

/-- Offsets and sizes are words of 64 bits, so they lie below `2 ^ 64`. -/
def addressSpace : Nat := 0x1_0000_0000_0000_0000

end WasmText
