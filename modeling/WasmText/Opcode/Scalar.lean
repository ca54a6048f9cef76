import WasmText.Opcode.Basic

/-!
# Scalar instructions

The scalar band of the opcode table, in ascending order of codes.
-/

namespace WasmText.Opcode

/-- Control, calls, locals, globals, drop and scalar selection. -/
def controlInstructions : List Opcode :=
  [⟨0x000, "unreachable", .control, .void, .void, .void, 0, 0⟩,
    ⟨0x001, "nop", .control, .void, .void, .void, 0, 0⟩,
    ⟨0x002, "block", .control, .void, .void, .void, 0, 0⟩,
    ⟨0x003, "loop", .control, .void, .void, .void, 0, 0⟩,
    ⟨0x004, "if", .control, .void, .void, .void, 0, 0⟩,
    ⟨0x005, "else", .control, .void, .void, .void, 0, 0⟩,
    ⟨0x00b, "end", .control, .void, .void, .void, 0, 0⟩,
    ⟨0x00c, "br", .control, .void, .void, .void, 0, 0⟩,
    ⟨0x00d, "br_if", .control, .void, .void, .void, 0, 0⟩,
    ⟨0x00e, "br_table", .control, .void, .void, .void, 0, 0⟩,
    ⟨0x00f, "return", .control, .void, .void, .void, 0, 0⟩,
    ⟨0x010, "call", .control, .void, .void, .void, 0, 0⟩,
    ⟨0x011, "call_indirect", .control, .void, .void, .void, 0, 0⟩,
    ⟨0x01a, "drop", .control, .void, .void, .void, 0, 0⟩,
    ⟨0x01b, "select", .select, .void, .void, .void, 0, 0⟩,
    ⟨0x020, "get_local", .control, .void, .void, .void, 0, 0⟩,
    ⟨0x021, "set_local", .control, .void, .void, .void, 0, 0⟩,
    ⟨0x022, "tee_local", .control, .void, .void, .void, 0, 0⟩,
    ⟨0x023, "get_global", .control, .void, .void, .void, 0, 0⟩,
    ⟨0x024, "set_global", .control, .void, .void, .void, 0, 0⟩]

/-- Loads, stores, and the size of memory and its growth. -/
def scalarMemoryInstructions : List Opcode :=
  [⟨0x028, "i32.load", .load, .i32, .i32, .void, 4, 0⟩,
    ⟨0x029, "i64.load", .load, .i64, .i32, .void, 8, 0⟩,
    ⟨0x02a, "f32.load", .load, .f32, .i32, .void, 4, 0⟩,
    ⟨0x02b, "f64.load", .load, .f64, .i32, .void, 8, 0⟩,
    ⟨0x02c, "i32.load8_s", .load, .i32, .i32, .void, 1, 0⟩,
    ⟨0x02d, "i32.load8_u", .load, .i32, .i32, .void, 1, 0⟩,
    ⟨0x02e, "i32.load16_s", .load, .i32, .i32, .void, 2, 0⟩,
    ⟨0x02f, "i32.load16_u", .load, .i32, .i32, .void, 2, 0⟩,
    ⟨0x030, "i64.load8_s", .load, .i64, .i32, .void, 1, 0⟩,
    ⟨0x031, "i64.load8_u", .load, .i64, .i32, .void, 1, 0⟩,
    ⟨0x032, "i64.load16_s", .load, .i64, .i32, .void, 2, 0⟩,
    ⟨0x033, "i64.load16_u", .load, .i64, .i32, .void, 2, 0⟩,
    ⟨0x034, "i64.load32_s", .load, .i64, .i32, .void, 4, 0⟩,
    ⟨0x035, "i64.load32_u", .load, .i64, .i32, .void, 4, 0⟩,
    ⟨0x036, "i32.store", .store, .void, .i32, .i32, 4, 0⟩,
    ⟨0x037, "i64.store", .store, .void, .i32, .i64, 8, 0⟩,
    ⟨0x038, "f32.store", .store, .void, .i32, .f32, 4, 0⟩,
    ⟨0x039, "f64.store", .store, .void, .i32, .f64, 8, 0⟩,
    ⟨0x03a, "i32.store8", .store, .void, .i32, .i32, 1, 0⟩,
    ⟨0x03b, "i32.store16", .store, .void, .i32, .i32, 2, 0⟩,
    ⟨0x03c, "i64.store8", .store, .void, .i32, .i64, 1, 0⟩,
    ⟨0x03d, "i64.store16", .store, .void, .i32, .i64, 2, 0⟩,
    ⟨0x03e, "i64.store32", .store, .void, .i32, .i64, 4, 0⟩,
    ⟨0x03f, "current_memory", .memory, .i32, .void, .void, 0, 0⟩,
    ⟨0x040, "grow_memory", .memory, .i32, .i32, .void, 0, 0⟩]

/-- Scalar constants. -/
def scalarConstants : List Opcode :=
  [⟨0x041, "i32.const", .const, .i32, .void, .void, 0, 0⟩,
    ⟨0x042, "i64.const", .const, .i64, .void, .void, 0, 0⟩,
    ⟨0x043, "f32.const", .const, .f32, .void, .void, 0, 0⟩,
    ⟨0x044, "f64.const", .const, .f64, .void, .void, 0, 0⟩]

/-- Tests for zero and comparisons. -/
def scalarComparisons : List Opcode :=
  [⟨0x045, "i32.eqz", .convert, .i32, .i32, .void, 0, 0⟩,
    ⟨0x046, "i32.eq", .compare, .i32, .i32, .i32, 0, 0⟩,
    ⟨0x047, "i32.ne", .compare, .i32, .i32, .i32, 0, 0⟩,
    ⟨0x048, "i32.lt_s", .compare, .i32, .i32, .i32, 0, 0⟩,
    ⟨0x049, "i32.lt_u", .compare, .i32, .i32, .i32, 0, 0⟩,
    ⟨0x04a, "i32.gt_s", .compare, .i32, .i32, .i32, 0, 0⟩,
    ⟨0x04b, "i32.gt_u", .compare, .i32, .i32, .i32, 0, 0⟩,
    ⟨0x04c, "i32.le_s", .compare, .i32, .i32, .i32, 0, 0⟩,
    ⟨0x04d, "i32.le_u", .compare, .i32, .i32, .i32, 0, 0⟩,
    ⟨0x04e, "i32.ge_s", .compare, .i32, .i32, .i32, 0, 0⟩,
    ⟨0x04f, "i32.ge_u", .compare, .i32, .i32, .i32, 0, 0⟩,
    ⟨0x050, "i64.eqz", .convert, .i32, .i64, .void, 0, 0⟩,
    ⟨0x051, "i64.eq", .compare, .i32, .i64, .i64, 0, 0⟩,
    ⟨0x052, "i64.ne", .compare, .i32, .i64, .i64, 0, 0⟩,
    ⟨0x053, "i64.lt_s", .compare, .i32, .i64, .i64, 0, 0⟩,
    ⟨0x054, "i64.lt_u", .compare, .i32, .i64, .i64, 0, 0⟩,
    ⟨0x055, "i64.gt_s", .compare, .i32, .i64, .i64, 0, 0⟩,
    ⟨0x056, "i64.gt_u", .compare, .i32, .i64, .i64, 0, 0⟩,
    ⟨0x057, "i64.le_s", .compare, .i32, .i64, .i64, 0, 0⟩,
    ⟨0x058, "i64.le_u", .compare, .i32, .i64, .i64, 0, 0⟩,
    ⟨0x059, "i64.ge_s", .compare, .i32, .i64, .i64, 0, 0⟩,
    ⟨0x05a, "i64.ge_u", .compare, .i32, .i64, .i64, 0, 0⟩,
    ⟨0x05b, "f32.eq", .compare, .i32, .f32, .f32, 0, 0⟩,
    ⟨0x05c, "f32.ne", .compare, .i32, .f32, .f32, 0, 0⟩,
    ⟨0x05d, "f32.lt", .compare, .i32, .f32, .f32, 0, 0⟩,
    ⟨0x05e, "f32.gt", .compare, .i32, .f32, .f32, 0, 0⟩,
    ⟨0x05f, "f32.le", .compare, .i32, .f32, .f32, 0, 0⟩,
    ⟨0x060, "f32.ge", .compare, .i32, .f32, .f32, 0, 0⟩,
    ⟨0x061, "f64.eq", .compare, .i32, .f64, .f64, 0, 0⟩,
    ⟨0x062, "f64.ne", .compare, .i32, .f64, .f64, 0, 0⟩,
    ⟨0x063, "f64.lt", .compare, .i32, .f64, .f64, 0, 0⟩,
    ⟨0x064, "f64.gt", .compare, .i32, .f64, .f64, 0, 0⟩,
    ⟨0x065, "f64.le", .compare, .i32, .f64, .f64, 0, 0⟩,
    ⟨0x066, "f64.ge", .compare, .i32, .f64, .f64, 0, 0⟩]

/-- Arithmetic and conversions. -/
def scalarArithmetic : List Opcode :=
  [⟨0x067, "i32.clz", .unary, .i32, .i32, .void, 0, 0⟩,
    ⟨0x068, "i32.ctz", .unary, .i32, .i32, .void, 0, 0⟩,
    ⟨0x069, "i32.popcnt", .unary, .i32, .i32, .void, 0, 0⟩,
    ⟨0x06a, "i32.add", .binary, .i32, .i32, .i32, 0, 0⟩,
    ⟨0x06b, "i32.sub", .binary, .i32, .i32, .i32, 0, 0⟩,
    ⟨0x06c, "i32.mul", .binary, .i32, .i32, .i32, 0, 0⟩,
    ⟨0x06d, "i32.div_s", .binary, .i32, .i32, .i32, 0, 0⟩,
    ⟨0x06e, "i32.div_u", .binary, .i32, .i32, .i32, 0, 0⟩,
    ⟨0x06f, "i32.rem_s", .binary, .i32, .i32, .i32, 0, 0⟩,
    ⟨0x070, "i32.rem_u", .binary, .i32, .i32, .i32, 0, 0⟩,
    ⟨0x071, "i32.and", .binary, .i32, .i32, .i32, 0, 0⟩,
    ⟨0x072, "i32.or", .binary, .i32, .i32, .i32, 0, 0⟩,
    ⟨0x073, "i32.xor", .binary, .i32, .i32, .i32, 0, 0⟩,
    ⟨0x074, "i32.shl", .binary, .i32, .i32, .i32, 0, 0⟩,
    ⟨0x075, "i32.shr_s", .binary, .i32, .i32, .i32, 0, 0⟩,
    ⟨0x076, "i32.shr_u", .binary, .i32, .i32, .i32, 0, 0⟩,
    ⟨0x077, "i32.rotl", .binary, .i32, .i32, .i32, 0, 0⟩,
    ⟨0x078, "i32.rotr", .binary, .i32, .i32, .i32, 0, 0⟩,
    ⟨0x079, "i64.clz", .unary, .i64, .i64, .void, 0, 0⟩,
    ⟨0x07a, "i64.ctz", .unary, .i64, .i64, .void, 0, 0⟩,
    ⟨0x07b, "i64.popcnt", .unary, .i64, .i64, .void, 0, 0⟩,
    ⟨0x07c, "i64.add", .binary, .i64, .i64, .i64, 0, 0⟩,
    ⟨0x07d, "i64.sub", .binary, .i64, .i64, .i64, 0, 0⟩,
    ⟨0x07e, "i64.mul", .binary, .i64, .i64, .i64, 0, 0⟩,
    ⟨0x07f, "i64.div_s", .binary, .i64, .i64, .i64, 0, 0⟩,
    ⟨0x080, "i64.div_u", .binary, .i64, .i64, .i64, 0, 0⟩,
    ⟨0x081, "i64.rem_s", .binary, .i64, .i64, .i64, 0, 0⟩,
    ⟨0x082, "i64.rem_u", .binary, .i64, .i64, .i64, 0, 0⟩,
    ⟨0x083, "i64.and", .binary, .i64, .i64, .i64, 0, 0⟩,
    ⟨0x084, "i64.or", .binary, .i64, .i64, .i64, 0, 0⟩,
    ⟨0x085, "i64.xor", .binary, .i64, .i64, .i64, 0, 0⟩,
    ⟨0x086, "i64.shl", .binary, .i64, .i64, .i64, 0, 0⟩,
    ⟨0x087, "i64.shr_s", .binary, .i64, .i64, .i64, 0, 0⟩,
    ⟨0x088, "i64.shr_u", .binary, .i64, .i64, .i64, 0, 0⟩,
    ⟨0x089, "i64.rotl", .binary, .i64, .i64, .i64, 0, 0⟩,
    ⟨0x08a, "i64.rotr", .binary, .i64, .i64, .i64, 0, 0⟩,
    ⟨0x08b, "f32.abs", .unary, .f32, .f32, .void, 0, 0⟩,
    ⟨0x08c, "f32.neg", .unary, .f32, .f32, .void, 0, 0⟩,
    ⟨0x08d, "f32.ceil", .unary, .f32, .f32, .void, 0, 0⟩,
    ⟨0x08e, "f32.floor", .unary, .f32, .f32, .void, 0, 0⟩,
    ⟨0x08f, "f32.trunc", .unary, .f32, .f32, .void, 0, 0⟩,
    ⟨0x090, "f32.nearest", .unary, .f32, .f32, .void, 0, 0⟩,
    ⟨0x091, "f32.sqrt", .unary, .f32, .f32, .void, 0, 0⟩,
    ⟨0x092, "f32.add", .binary, .f32, .f32, .f32, 0, 0⟩,
    ⟨0x093, "f32.sub", .binary, .f32, .f32, .f32, 0, 0⟩,
    ⟨0x094, "f32.mul", .binary, .f32, .f32, .f32, 0, 0⟩,
    ⟨0x095, "f32.div", .binary, .f32, .f32, .f32, 0, 0⟩,
    ⟨0x096, "f32.min", .binary, .f32, .f32, .f32, 0, 0⟩,
    ⟨0x097, "f32.max", .binary, .f32, .f32, .f32, 0, 0⟩,
    ⟨0x098, "f32.copysign", .binary, .f32, .f32, .f32, 0, 0⟩,
    ⟨0x099, "f64.abs", .unary, .f64, .f64, .void, 0, 0⟩,
    ⟨0x09a, "f64.neg", .unary, .f64, .f64, .void, 0, 0⟩,
    ⟨0x09b, "f64.ceil", .unary, .f64, .f64, .void, 0, 0⟩,
    ⟨0x09c, "f64.floor", .unary, .f64, .f64, .void, 0, 0⟩,
    ⟨0x09d, "f64.trunc", .unary, .f64, .f64, .void, 0, 0⟩,
    ⟨0x09e, "f64.nearest", .unary, .f64, .f64, .void, 0, 0⟩,
    ⟨0x09f, "f64.sqrt", .unary, .f64, .f64, .void, 0, 0⟩,
    ⟨0x0a0, "f64.add", .binary, .f64, .f64, .f64, 0, 0⟩,
    ⟨0x0a1, "f64.sub", .binary, .f64, .f64, .f64, 0, 0⟩,
    ⟨0x0a2, "f64.mul", .binary, .f64, .f64, .f64, 0, 0⟩,
    ⟨0x0a3, "f64.div", .binary, .f64, .f64, .f64, 0, 0⟩,
    ⟨0x0a4, "f64.min", .binary, .f64, .f64, .f64, 0, 0⟩,
    ⟨0x0a5, "f64.max", .binary, .f64, .f64, .f64, 0, 0⟩,
    ⟨0x0a6, "f64.copysign", .binary, .f64, .f64, .f64, 0, 0⟩,
    ⟨0x0a7, "i32.wrap/i64", .convert, .i32, .i64, .void, 0, 0⟩,
    ⟨0x0a8, "i32.trunc_s/f32", .convert, .i32, .f32, .void, 0, 0⟩,
    ⟨0x0a9, "i32.trunc_u/f32", .convert, .i32, .f32, .void, 0, 0⟩,
    ⟨0x0aa, "i32.trunc_s/f64", .convert, .i32, .f64, .void, 0, 0⟩,
    ⟨0x0ab, "i32.trunc_u/f64", .convert, .i32, .f64, .void, 0, 0⟩,
    ⟨0x0ac, "i64.extend_s/i32", .convert, .i64, .i32, .void, 0, 0⟩,
    ⟨0x0ad, "i64.extend_u/i32", .convert, .i64, .i32, .void, 0, 0⟩,
    ⟨0x0ae, "i64.trunc_s/f32", .convert, .i64, .f32, .void, 0, 0⟩,
    ⟨0x0af, "i64.trunc_u/f32", .convert, .i64, .f32, .void, 0, 0⟩,
    ⟨0x0b0, "i64.trunc_s/f64", .convert, .i64, .f64, .void, 0, 0⟩,
    ⟨0x0b1, "i64.trunc_u/f64", .convert, .i64, .f64, .void, 0, 0⟩,
    ⟨0x0b2, "f32.convert_s/i32", .convert, .f32, .i32, .void, 0, 0⟩,
    ⟨0x0b3, "f32.convert_u/i32", .convert, .f32, .i32, .void, 0, 0⟩,
    ⟨0x0b4, "f32.convert_s/i64", .convert, .f32, .i64, .void, 0, 0⟩,
    ⟨0x0b5, "f32.convert_u/i64", .convert, .f32, .i64, .void, 0, 0⟩,
    ⟨0x0b6, "f32.demote/f64", .convert, .f32, .f64, .void, 0, 0⟩,
    ⟨0x0b7, "f64.convert_s/i32", .convert, .f64, .i32, .void, 0, 0⟩,
    ⟨0x0b8, "f64.convert_u/i32", .convert, .f64, .i32, .void, 0, 0⟩,
    ⟨0x0b9, "f64.convert_s/i64", .convert, .f64, .i64, .void, 0, 0⟩,
    ⟨0x0ba, "f64.convert_u/i64", .convert, .f64, .i64, .void, 0, 0⟩,
    ⟨0x0bb, "f64.promote/f32", .convert, .f64, .f32, .void, 0, 0⟩,
    ⟨0x0bc, "i32.reinterpret/f32", .convert, .i32, .f32, .void, 0, 0⟩,
    ⟨0x0bd, "i64.reinterpret/f64", .convert, .i64, .f64, .void, 0, 0⟩,
    ⟨0x0be, "f32.reinterpret/i32", .convert, .f32, .i32, .void, 0, 0⟩,
    ⟨0x0bf, "f64.reinterpret/i64", .convert, .f64, .i64, .void, 0, 0⟩]

end WasmText.Opcode
